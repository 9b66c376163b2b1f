import Mathlib.Data.List.Basic

/-!
# Names of the name system

The check of a name takes the domain and the ends of its label off one after the
other.  It accepts exactly the names of a small grammar.
-/

namespace Beldex.Bns

open List

def domainNameMax : Nat := 63 + 4

def domainNameMaxNohyphen : Nat := 32 + 4

def charIsAlphanum (c : Char) : Bool :=
  ('0' <= c && c <= '9') || ('a' <= c && c <= 'z')

def charIsAlphanumOrHyphen (c : Char) : Bool :=
  charIsAlphanum c || c == '-'

def domain : List Char := ".bdx".toList

def reservedNames : List (List Char) :=
  ["localhost.bdx".toList, "beldex.bdx".toList, "mnode.bdx".toList]

def maxNameLen (name : List Char) : Nat :=
  if '-' ∈ name then domainNameMax else domainNameMaxNohyphen

/-- The check of what is left of a name without its domain; nothing for an access to a
character that is not there. -/
def validateLabel (label : List Char) : Option Bool :=
  if 4 <= label.length ∧ (label.drop 2).take 2 = ['-', '-'] ∧ ¬ "xn--".toList <+: label then
    some false
  else
    label.head?.bind fun first =>
      if !charIsAlphanum first then some false
      else if label.tail = [] then some true
      else label.tail.getLast?.map fun last =>
        charIsAlphanum last && label.tail.dropLast.all charIsAlphanumOrHyphen

def validateBnsName (name : List Char) : Option Bool :=
  let lower := name.map Char.toLower
  if lower = [] ∨ maxNameLen name < lower.length then some false
  else if lower ∈ reservedNames then some false
  else if lower.length < "a.bdx".toList.length then some false
  else if ¬ domain <:+ lower then some false
  else validateLabel (lower.take (lower.length - domain.length))

/-- A letter or digit, and possibly more with hyphens between the first and the last. -/
def IsLabel (label : List Char) : Prop :=
  exists first rest, label = first :: rest ∧ charIsAlphanum first = true ∧
    (rest = [] ∨ exists middle last, rest = middle ++ [last] ∧
      (forall c, c ∈ middle -> charIsAlphanum c = true ∨ c = '-') ∧ charIsAlphanum last = true)

def IsBnsName (name : List Char) : Prop :=
  exists label, name.map Char.toLower = label ++ domain ∧ IsLabel label ∧
    name.length <= maxNameLen name ∧
    (label[2]? = some '-' ∧ label[3]? = some '-' -> "xn--".toList <+: label) ∧
    name.map Char.toLower ∉ reservedNames

theorem reserved_iff (label : List Char) :
    (4 <= label.length ∧ (label.drop 2).take 2 = ['-', '-'] ∧ ¬ "xn--".toList <+: label) <->
      ¬ (label[2]? = some '-' ∧ label[3]? = some '-' -> "xn--".toList <+: label) := by
  rw [Classical.not_imp, <- and_assoc]
  rcases label with _ | ⟨a, _ | ⟨b, _ | ⟨c, _ | ⟨d, rest⟩⟩⟩⟩ <;> simp

theorem validateLabel_spec (label : List Char) (hne : label ≠ []) :
    exists accepted, validateLabel label = some accepted ∧ (accepted = true <->
      IsLabel label ∧
        (label[2]? = some '-' ∧ label[3]? = some '-' -> "xn--".toList <+: label)) := by
  have hreserved := reserved_iff label
  unfold validateLabel
  split
  next hcond =>
    exact ⟨false, rfl, by simpa using fun _ => hreserved.mp hcond⟩
  next hcond =>
    rw [and_iff_left (not_not.mp (mt hreserved.mpr hcond))]
    rcases exists_cons_of_ne_nil hne with ⟨first, rest, rfl⟩
    rw [head?_cons, Option.bind_some, tail_cons]
    cases hfirst : charIsAlphanum first with
    | false => exact ⟨false, rfl, by simp [IsLabel, hfirst]⟩
    | true =>
      rcases eq_nil_or_concat rest with rfl | ⟨middle, last, rfl⟩
      · exact ⟨true, rfl, by simp [IsLabel, hfirst]⟩
      · refine ⟨charIsAlphanum last && middle.all charIsAlphanumOrHyphen, by simp, ?_⟩
        simp [IsLabel, hfirst, charIsAlphanumOrHyphen, and_comm]

/-- Every name is accepted exactly if it is one of the grammar, without an access to a
character that is not there. -/
theorem validateBnsName_spec (name : List Char) :
    exists accepted, validateBnsName name = some accepted ∧
      (accepted = true <-> IsBnsName name) := by
  have hreject (h : ¬ IsBnsName name) :
      exists accepted, some false = some accepted ∧ (accepted = true <-> IsBnsName name) :=
    ⟨false, rfl, iff_of_false Bool.false_ne_true h⟩
  have hlen : (name.map Char.toLower).length = name.length := length_map _
  unfold validateBnsName
  dsimp only
  split
  next hbounds =>
    refine hreject ?_
    rintro ⟨label, hname, -, hmax, -⟩
    rw [hlen, hname] at hbounds
    simp [domain] at hbounds
    omega
  next hbounds =>
    split
    next hreserved =>
      exact hreject fun ⟨_, _, _, _, _, hnot⟩ => hnot hreserved
    next hreserved =>
      split
      next hshort =>
        refine hreject ?_
        rintro ⟨_, hname, ⟨first, rest, rfl, -⟩, -⟩
        simp [hname, domain] at hshort
        omega
      next hshort =>
        split
        next hdomain =>
          exact hreject fun ⟨label, hname, _⟩ => hdomain ⟨label, hname.symm⟩
        next hdomain =>
          rcases not_not.mp hdomain with ⟨label, hname⟩
          rw [<- hname, length_append, Nat.add_sub_cancel, take_left]
          rw [<- hname] at hshort
          have hne : label ≠ [] := by
            rintro rfl
            simp [domain] at hshort
          rcases validateLabel_spec label hne with ⟨accepted, hvalid, hiff⟩
          refine ⟨accepted, hvalid, hiff.trans ⟨?_, ?_⟩⟩
          · rintro ⟨hlabel, hhyphens⟩
            exact ⟨label, hname.symm, hlabel, by omega, hhyphens, hreserved⟩
          · rintro ⟨label', hname', hlabel, -, hhyphens, -⟩
            rw [append_cancel_right (hname.trans hname')]
            exact ⟨hlabel, hhyphens⟩

end Beldex.Bns
