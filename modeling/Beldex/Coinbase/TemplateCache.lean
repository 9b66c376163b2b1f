import Beldex.Coinbase.Reward

/-!
# The cache of block templates

A template for the tip of the chain is kept for the next request.  The requests
of a run are followed together with the changes of the chain and of the pool.
-/

namespace Beldex.Coinbase

open Crypto

/-- Who asks for a template, and is paid by it. -/
inductive BlockTemplateInfo where
  | miner (address : AccountPublicAddress)
  | pos (masterNodePayout : Payout)
deriving DecidableEq

namespace BlockTemplateInfo

def isMiner : BlockTemplateInfo -> Bool
  | .miner _ => true
  | .pos _ => false

/-- The POS quorum leaves its address empty. -/
def minerAddress : BlockTemplateInfo -> AccountPublicAddress
  | .miner address => address
  | .pos _ => ⟨nullPkey, nullPkey⟩

end BlockTemplateInfo

structure BlockTemplate where
  prevId : Hash
  timestamp : Nat
  payee : BlockTemplateInfo
  extraNonce : List UInt8
  txHashes : List Hash

structure TemplateResult where
  block : BlockTemplate
  diffic : UInt64
  height : UInt64
  expectedReward : UInt64

structure CachedTemplate where
  btc : BlockTemplate
  address : AccountPublicAddress
  nonce : List UInt8
  height : UInt64
  expectedReward : UInt64
  poolCookie : UInt64

/-- The chain and the pool as templates see them.  `fill` selects the transactions and builds
the coinbase, with the difficulty, the height and the reward; it fails where the code does. -/
structure TemplateOracles (κ π : Type) where
  tailId : κ -> Hash
  getDifficultyForNextBlock : κ -> Bool -> UInt64
  checkedTimestamp : κ -> Nat -> Nat
  cookie : π -> UInt64
  fill : κ -> π -> Option Hash -> BlockTemplateInfo -> List UInt8 ->
    Option (List Hash × UInt64 × UInt64 × UInt64)

structure TemplateState (κ π : Type) where
  chain : κ
  pool : π
  cached : Option CachedTemplate

structure TemplateRequest where
  fromBlock : Option Hash
  info : BlockTemplateInfo
  exNonce : List UInt8
  now : Nat

variable {κ π : Type} (O : TemplateOracles κ π) (s : TemplateState κ π) (r : TemplateRequest)

def constructTemplate : Option TemplateResult :=
  (O.fill s.chain s.pool r.fromBlock r.info r.exNonce).map fun (txs, diffic, height, reward) =>
    { block :=
        { prevId := r.fromBlock.getD (O.tailId s.chain)
          timestamp := O.checkedTimestamp s.chain r.now
          payee := r.info
          extraNonce := r.exNonce
          txHashes := txs }
      diffic := diffic
      height := height
      expectedReward := reward }

def cacheBlockTemplate (result : TemplateResult) : CachedTemplate where
  btc := result.block
  address := r.info.minerAddress
  nonce := r.exNonce
  height := result.height
  expectedReward := result.expectedReward
  poolCookie := O.cookie s.pool

def buildTemplate : Option TemplateResult × TemplateState κ π :=
  match constructTemplate O s r, r.fromBlock with
  | some result, none => (some result, { s with cached := some (cacheBlockTemplate O s r result) })
  | result, _ => (result, s)

/-- The test that serves a request from the cache, as it stands in the code. -/
abbrev Hits (c : CachedTemplate) : Prop :=
  r.info.minerAddress ≠ c.address ∧ c.nonce = r.exNonce ∧ c.poolCookie = O.cookie s.pool ∧
    c.btc.prevId = O.tailId s.chain

def servedBlock (c : CachedTemplate) : BlockTemplate :=
  if c.btc.timestamp < r.now || !r.info.isMiner then { c.btc with timestamp := r.now } else c.btc

def createBlockTemplateInternal : Option TemplateResult × TemplateState κ π :=
  match r.fromBlock, s.cached with
  | none, some c =>
    if Hits O s r c then
      (some
        { block := servedBlock r c
          diffic := O.getDifficultyForNextBlock s.chain (!r.info.isMiner)
          height := c.height
          expectedReward := c.expectedReward },
        { s with cached := some { c with btc := servedBlock r c } })
    else
      buildTemplate O { s with cached := none } r
  | _, _ => buildTemplate O s r

inductive TemplateOp (κ π : Type) where
  | request (r : TemplateRequest)
  | chain (chain : κ)
  | pool (pool : π)

/-- Blocks that are added or popped empty the cache. -/
def applyTemplateOp : TemplateOp κ π -> TemplateState κ π
  | .request r => (createBlockTemplateInternal O s r).2
  | .chain chain => { s with chain := chain, cached := none }
  | .pool pool => { s with pool := pool }

def PaysCached : Prop :=
  forall c, s.cached = some c -> c.address = c.btc.payee.minerAddress

variable {O s}

theorem payee_servedBlock (c : CachedTemplate) : (servedBlock r c).payee = c.btc.payee := by
  unfold servedBlock
  split <;> rfl

theorem PaysCached.buildTemplate (h : PaysCached s) : PaysCached (buildTemplate O s r).2 := by
  unfold Coinbase.buildTemplate
  split
  next result hresult _ =>
    rcases Option.map_eq_some_iff.mp hresult with ⟨parts, _, rfl⟩
    rintro c ⟨⟩
    rfl
  · exact h

theorem PaysCached.apply (h : PaysCached s) (op : TemplateOp κ π) :
    PaysCached (applyTemplateOp O s op) := by
  cases op with
  | chain chain => exact fun _ hnone => nomatch hnone
  | pool pool => exact h
  | request r =>
    change PaysCached (createBlockTemplateInternal O s r).2
    unfold createBlockTemplateInternal
    split
    next c _ hcached =>
      split
      · rintro c' ⟨⟩
        rw [payee_servedBlock]
        exact h c hcached
      · exact PaysCached.buildTemplate r fun _ hnone => nomatch hnone
    · exact h.buildTemplate r

def TemplateResult.timeless (result : TemplateResult) : TemplateResult :=
  { result with block := { result.block with timestamp := 0 } }

def emptyTemplates : TemplateOracles Unit Unit where
  tailId _ := nullHash
  getDifficultyForNextBlock _ _ := 1
  checkedTimestamp _ now := now
  cookie _ := 0
  fill _ _ _ _ _ := some ([], 1, 1, 0)

def requestOf (key : PublicKey) : TemplateRequest where
  fromBlock := none
  info := .miner ⟨key, key⟩
  exNonce := []
  now := 0

end Beldex.Coinbase
