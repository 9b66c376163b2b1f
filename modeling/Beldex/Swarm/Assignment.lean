import Beldex.Basic.Config
import Beldex.Foundation.Loops
import Beldex.Foundation.OrderedSet
import Beldex.Foundation.Sums

/-!
# Swarms

Active master nodes are grouped into swarms.  When nodes come or go, the groups
are brought back to sizes between a minimum and an ideal: new nodes join small
swarms, large swarms help out starving ones or split off a new swarm, and swarms
that stay too small are dissolved.  The nodes that move are drawn at random.
-/

namespace Beldex.Swarm

open Basic Crypto Foundation Foundation.Loops Foundation.Sums

variable {σ : Type}

/-! ## Constants -/

def minSwarmSize : Nat := 5

def idealSwarmMargin : Nat := 2

def idealSwarmSize : Nat := minSwarmSize + idealSwarmMargin

def newSwarmSize : Nat := idealSwarmSize

def fillSwarmLowerPercentile : Nat := 25

def decommissionedRedistributionLowerPercentile : Nat := 0

def stealingSwarmUpperPercentile : Nat := 75

def maxId : UInt64 := unassignedSwarmId - 1

/-! ## Data -/

structure Group where
  swarmId : UInt64
  mnodes : List PublicKey
deriving DecidableEq

def Group.rank (group : Group) : Nat := group.swarmId.toNat

abbrev SwarmMnodeMap := OrderedSet Group Group.rank

def noSwarms : SwarmMnodeMap := ⟨[], List.Pairwise.nil⟩

variable (swarmToMnodes : SwarmMnodeMap)

def allMnodes : List PublicKey :=
  swarmToMnodes.items.flatMap Group.mnodes

structure SwarmSize where
  swarmId : UInt64
  size : Nat
deriving DecidableEq

structure ExcessPoolMnode where
  publicKey : PublicKey
  swarmId : UInt64

/-- The random generator and the sort of the standard library.  A draw is any number below
the bound, and swarms of one size come in any order. -/
structure SwarmEnv (σ : Type) where
  mersenneTwister : UInt64 -> σ
  uniformDistributionPortable : σ -> Nat -> Nat × σ
  uniform_lt : forall mt n, 0 < n -> (uniformDistributionPortable mt n).1 < n
  sort : List SwarmSize -> List SwarmSize
  sort_perm : forall sizes, (sort sizes).Perm sizes
  sort_sorted : forall sizes, (sort sizes).Pairwise fun a b => a.size <= b.size

structure SwarmState (σ : Type) where
  swarmToMnodes : SwarmMnodeMap
  mt : σ

/-- Change the nodes of a swarm; there is no such swarm when nothing is returned. -/
def changeAt (swarmId : UInt64) (f : List PublicKey -> List PublicKey) : Option SwarmMnodeMap :=
  if (swarmToMnodes.find? swarmId.toNat).isSome then
    some (swarmToMnodes.modify swarmId.toNat
      (fun group => { group with mnodes := f group.mnodes }) fun _ => rfl)
  else
    none

/-! ## A new identifier -/

section

variable (fit : Int -> Option UInt64) (allIds : List UInt64)

/-- The machine keeps the low 64 bits. -/
def lowBits (z : Int) : Option UInt64 :=
  some (UInt64.ofNat (z % 2 ^ 64).toNat)

def halfWay (maxDist best : UInt64) : Option UInt64 := do
  let diff := maxDist / 2
  let toMax <- fit (maxId.toNat - best.toNat)
  if toMax < diff then do
    let beyond <- fit (diff.toNat - toMax.toNat)
    fit (beyond.toNat - 1)
  else
    fit (best.toNat + diff.toNat)

structure GapSearch where
  idx : UInt32
  maxDist : UInt64
  bestIdx : Nat

namespace GapSearch

variable (search : GapSearch)

def goesOn : Bool :=
  search.idx.toNat < allIds.length - 1

def round : Option GapSearch := do
  let next <- allIds[(search.idx + 1).toNat]?
  let id <- allIds[search.idx.toNat]?
  let dist <- fit (next.toNat - id.toNat)
  some (if search.maxDist < dist then ⟨search.idx + 1, dist, search.idx.toNat⟩
    else { search with idx := search.idx + 1 })

def newSwarmId : Option UInt64 := do
  let front <- allIds.head?
  let back <- allIds.getLast?
  let toBack <- fit (maxId.toNat - back.toNat)
  let around <- fit (toBack.toNat + front.toNat)
  let dist <- fit (around.toNat + 1)
  let search := if search.maxDist < dist then
      { search with maxDist := dist, bestIdx := allIds.length - 1 }
    else search
  let best <- allIds[search.bestIdx]?
  halfWay fit search.maxDist best

end GapSearch

def searchNewSwarmId (swarmToMnodes : SwarmMnodeMap) (fuel : Nat) : Option UInt64 :=
  let allIds := swarmToMnodes.items.map Group.swarmId
  if allIds.isEmpty then
    some 0
  else do
    let search <- whileLoop (GapSearch.goesOn allIds) (fun _ => GapSearch.round fit allIds) fuel
      ⟨0, 0, 0⟩
    search.newSwarmId fit allIds

end

/-- The index of the search has 32 bits. -/
def getNewSwarmId (fuel : Nat) : Option UInt64 :=
  searchNewSwarmId lowBits swarmToMnodes fuel

/-! ## Excess -/

def calcExcess : Nat :=
  total (fun group => group.mnodes.length - minSwarmSize) swarmToMnodes.items

def calcThreshold : Nat :=
  newSwarmSize + swarmToMnodes.items.length * idealSwarmMargin

variable (env : SwarmEnv σ)

def pickFromExcessPool (excessPool : List ExcessPoolMnode) (mt : σ) :
    Option (ExcessPoolMnode × σ) :=
  let (idx, mt) := env.uniformDistributionPortable mt excessPool.length
  (excessPool[idx]?).map fun mnode => (mnode, mt)

def removeExcessMnodeFromSwarm (excessMnode : ExcessPoolMnode)
    (swarmToMnodes : SwarmMnodeMap) : Option SwarmMnodeMap :=
  changeAt swarmToMnodes excessMnode.swarmId fun mnodes =>
    mnodes.filter fun mnode => mnode != excessMnode.publicKey

/-- The nodes of the swarms above the threshold, and the excess of these swarms unless it
is left as it was. -/
def getExcessPool (threshold : Nat) (swarmToMnodes : SwarmMnodeMap) :
    List ExcessPoolMnode × Option Nat :=
  if threshold < minSwarmSize then
    ([], none)
  else
    let rich := swarmToMnodes.items.filter fun group => threshold < group.mnodes.length
    (rich.flatMap fun group => group.mnodes.map fun mnode => ⟨mnode, group.swarmId⟩,
      some (total (fun group => group.mnodes.length - minSwarmSize) rich))

/-! ## Creating swarms -/

/-- Take nodes for a new swarm out of the rich ones; the flag tells that there were not
enough of them. -/
def gatherNewSwarm (env : SwarmEnv σ) :
    Nat -> List PublicKey -> SwarmState σ -> Option (List PublicKey × SwarmState σ × Bool)
  | 0, newSwarmMnodes, state => some (newSwarmMnodes, state, false)
  | missing + 1, newSwarmMnodes, state =>
    let (poolMnodes, _) := getExcessPool minSwarmSize state.swarmToMnodes
    if poolMnodes.isEmpty then
      some (newSwarmMnodes, state, true)
    else do
      let (mnode, mt) <- pickFromExcessPool env poolMnodes state.mt
      let swarmToMnodes <- removeExcessMnodeFromSwarm mnode state.swarmToMnodes
      gatherNewSwarm env missing (newSwarmMnodes ++ [mnode.publicKey]) ⟨swarmToMnodes, mt⟩

/-- Split off one swarm; the flag tells that the creation ends here. -/
def splitOff (fuel : Nat) (state : SwarmState σ) : Option (SwarmState σ × Bool) := do
  let (newSwarmMnodes, state, failed) <- gatherNewSwarm env newSwarmSize [] state
  if failed then
    some (state, true)
  else do
    let newSwarmId <- getNewSwarmId state.swarmToMnodes fuel
    -- When the identifier is taken, the gathered nodes are dropped.
    some ({ state with
      swarmToMnodes := state.swarmToMnodes.emplace ⟨newSwarmId, newSwarmMnodes⟩ }, false)

def isStarving (group : Group) : Bool :=
  group.mnodes.length < minSwarmSize

def createNewSwarmFromExcess (fuel : Nat) (state : SwarmState σ) : Option (SwarmState σ) :=
  if state.swarmToMnodes.items.any isStarving then
    some state
  else
    (whileLoop
      (fun loop : SwarmState σ × Bool => !loop.2 &&
        calcThreshold loop.1.swarmToMnodes <= calcExcess loop.1.swarmToMnodes)
      (fun fuel loop => splitOff env fuel loop.1) fuel (state, false)).map Prod.fst

/-! ## Assigning nodes -/

def calcSwarmSizes (swarmToMnodes : SwarmMnodeMap) : List SwarmSize :=
  env.sort (swarmToMnodes.items.map fun group => ⟨group.swarmId, group.mnodes.length⟩)

/-- The last position, from a given one on, before the sizes get greater. -/
def upperIndex (sizes : List Nat) (percentileIndex percentileValue : Nat) : Nat :=
  match (sizes.drop percentileIndex).findIdx? fun size => percentileValue < size with
  | some i => percentileIndex + i - 1
  | none => sizes.length - 1

def assignMnode (percentile fuel : Nat) (state : SwarmState σ) (mnode : PublicKey) :
    Option (SwarmState σ) := do
  let sortedSwarmSizes := calcSwarmSizes env state.swarmToMnodes
  let percentileIndex := percentile * (sortedSwarmSizes.length - 1) / 100
  let percentileValue <- sortedSwarmSizes[percentileIndex]?
  let upper := upperIndex (sortedSwarmSizes.map SwarmSize.size) percentileIndex
    percentileValue.size
  let (randomIdx, mt) := env.uniformDistributionPortable state.mt (upper + 1)
  let chosen <- sortedSwarmSizes[randomIdx]?
  let swarmToMnodes <- changeAt state.swarmToMnodes chosen.swarmId (· ++ [mnode])
  createNewSwarmFromExcess env fuel ⟨swarmToMnodes, mt⟩

def assignMnodes (mnodePubkeys : List PublicKey) (percentile fuel : Nat) (state : SwarmState σ) :
    Option (SwarmState σ) :=
  forEach (assignMnode env percentile) fuel state mnodePubkeys

/-! ## Stealing from the rich -/

def predSize (size : Nat) : Nat :=
  if size = 0 then 2 ^ 64 - 1 else size - 1

def deficit (size : Nat) : Nat :=
  if size <= minSwarmSize then minSwarmSize - size else 2 ^ 64 - (size - minSwarmSize)

def mnodesAt (swarmId : UInt64) : Option (List PublicKey) :=
  (swarmToMnodes.find? swarmId.toNat).map Group.mnodes

/-- Give one node to a poor swarm; the flag tells that the excess does not suffice. -/
def stealOne (sortedSwarmSizes : List SwarmSize) (poor : UInt64) (state : SwarmState σ) :
    Option (SwarmState σ × Bool) := do
  let percentileIndex := stealingSwarmUpperPercentile * (sortedSwarmSizes.length - 1) / 100
  let percentile <- sortedSwarmSizes[percentileIndex]?
  let percentileValue := max minSwarmSize (predSize percentile.size)
  let (excessPool, excess?) := getExcessPool percentileValue state.swarmToMnodes
  let excess <- excess?
  let poorSwarmMnodes <- mnodesAt state.swarmToMnodes poor
  if excess < deficit poorSwarmMnodes.length then
    some (state, true)
  else do
    let (mnode, mt) <- pickFromExcessPool env excessPool state.mt
    let swarmToMnodes <- removeExcessMnodeFromSwarm mnode state.swarmToMnodes
    let swarmToMnodes <- changeAt swarmToMnodes poor (· ++ [mnode.publicKey])
    some (⟨swarmToMnodes, mt⟩, false)

def stillPoor (poor : UInt64) (loop : SwarmState σ × Bool) : Bool :=
  !loop.2 && (mnodesAt loop.1.swarmToMnodes poor).any fun mnodes =>
    mnodes.length < minSwarmSize

def saveSwarm (sortedSwarmSizes : List SwarmSize) (poor : UInt64) (fuel : Nat)
    (state : SwarmState σ) : Option (SwarmState σ × Bool) := do
  let loop <- stealOne env sortedSwarmSizes poor state
  whileLoop (stillPoor poor) (fun _ loop => stealOne env sortedSwarmSizes poor loop.1) fuel loop

/-- Save the starving swarms, the smallest one first, until the excess does not suffice. -/
def robinHood (env : SwarmEnv σ) (sortedSwarmSizes : List SwarmSize) (fuel : Nat) :
    List SwarmSize -> SwarmState σ -> Option (SwarmState σ)
  | [], state => some state
  | swarm :: rest, state =>
    if minSwarmSize <= swarm.size then
      some state
    else do
      let (state, insufficientExcess) <-
        saveSwarm env sortedSwarmSizes swarm.swarmId fuel state
      if insufficientExcess then some state
      else robinHood env sortedSwarmSizes fuel rest state

/-! ## Dissolving swarms -/

/-- The first starving swarm, unless it is the only one. -/
def decommissioned? : Option Group :=
  if 1 < swarmToMnodes.items.length then swarmToMnodes.items.find? isStarving else none

def decommission (fuel : Nat) (state : SwarmState σ) : Option (SwarmState σ) := do
  let group <- decommissioned? state.swarmToMnodes
  assignMnodes env group.mnodes decommissionedRedistributionLowerPercentile fuel
    { state with swarmToMnodes := state.swarmToMnodes.erase group.rank }

/-! ## All rounds -/

/-- Take the nodes without a swarm out, and make sure that there is a swarm. -/
def takeUnassigned : List PublicKey × SwarmMnodeMap :=
  let unassigned := (mnodesAt swarmToMnodes unassignedSwarmId).getD []
  let rest := swarmToMnodes.erase unassignedSwarmId.toNat
  (unassigned, if rest.items.isEmpty then rest.emplace ⟨0, []⟩ else rest)

def calcSwarmChanges (seed : UInt64) (fuel : Nat) (swarmToMnodes : SwarmMnodeMap) :
    Option SwarmMnodeMap :=
  if swarmToMnodes.items.isEmpty then
    some swarmToMnodes
  else do
    let (unassigned, rest) := takeUnassigned swarmToMnodes
    let state <- assignMnodes env unassigned fillSwarmLowerPercentile fuel
      ⟨rest, env.mersenneTwister seed⟩
    let sortedSwarmSizes := calcSwarmSizes env state.swarmToMnodes
    let state <- robinHood env sortedSwarmSizes fuel sortedSwarmSizes state
    let state <- createNewSwarmFromExcess env fuel state
    let state <- whileLoop (fun state => (decommissioned? state.swarmToMnodes).isSome)
      (decommission env) fuel state
    some state.swarmToMnodes

end Beldex.Swarm
