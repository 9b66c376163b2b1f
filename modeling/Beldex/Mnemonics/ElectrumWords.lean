import Beldex.Foundation.Bytes

/-!
# Mnemonic seeds

Four bytes become three words of a list, each one an offset from the word before, and a
last word repeats one of them as a checksum.  A word stands for its index in the list, as
the search for the language of a seed finds it.
-/

namespace Beldex.Mnemonics

open Foundation.Bytes List

def wordListLength : Nat := 1626

/-- The checksum of words, and whether two words begin in the same way. -/
structure Language where
  crc32 : List Nat -> Nat
  wordEqual : Nat -> Nat -> Bool
  wordEqual_self : forall word, wordEqual word word = true

variable (language : Language)

def createChecksumIndex (wordList : List Nat) : Nat :=
  language.crc32 wordList % wordList.length

def checksumTest (seed : List Nat) : Bool :=
  let words := seed.dropLast
  match seed.getLast?, words[createChecksumIndex language words]? with
  | some lastWord, some checksum => language.wordEqual checksum lastWord
  | _, _ => false

def encodeTriple (w0 : Nat) : List Nat :=
  let w1 := w0 % wordListLength
  let w2 := (w0 / wordListLength + w1) % wordListLength
  let w3 := (w0 / wordListLength / wordListLength + w2) % wordListLength
  [w1, w2, w3]

def encodeTriples : Nat -> List UInt8 -> List Nat
  | 0, _ => []
  | count + 1, src => encodeTriple (ofBytes (src.take 4)) ++ encodeTriples count (src.drop 4)

def bytesToWords (src : List UInt8) : Option (List Nat) :=
  let wordsStore := encodeTriples (src.length / 4) src
  if src.length % 4 ≠ 0 ∨ src.length = 0 then none
  else (wordsStore[createChecksumIndex language wordsStore]?).map fun word => wordsStore ++ [word]

def tripleValue (w1 w2 w3 : Nat) : Nat :=
  w1 + wordListLength * ((wordListLength - w1 + w2) % wordListLength) +
    wordListLength * wordListLength * ((wordListLength - w2 + w3) % wordListLength)

def decodeTriples : Nat -> List Nat -> Option (List UInt8)
  | 0, _ => some []
  | count + 1, w1 :: w2 :: w3 :: rest =>
    let w0 := tripleValue w1 w2 w3 % 2 ^ 32
    if w0 % wordListLength = w1 then (decodeTriples count rest).map (toBytes 4 w0 ++ ·) else none
  | _, _ => none

def wordsToBytes (seed : List Nat) (len : Nat) (duplicate : Bool) : Option (List UInt8) :=
  let expected := len * 8 * 3 / 32
  let hasChecksum := len == 0 || seed.length == expected + 1
  let words := if hasChecksum then seed.dropLast else seed
  if len % 4 ≠ 0 then none
  else if len ≠ 0 ∧ seed.length ≠ expected / 2 ∧ seed.length ≠ expected ∧
      seed.length ≠ expected + 1 then
    none
  else if hasChecksum && !checksumTest language seed then none
  else
    (decodeTriples (words.length / 3) words).map fun dst =>
      if 0 < len ∧ duplicate ∧ words.length = len * 3 / 32 / 2 then dst ++ dst else dst

/-! ## Triples -/

/-- The triples spell numbers of 32 bits. -/
def Encodes : List Nat -> Prop
  | w1 :: w2 :: w3 :: rest => tripleValue w1 w2 w3 < 2 ^ 32 ∧ Encodes rest
  | _ => True

variable {count : Nat}

theorem decode_encode {key : List UInt8} (h : key.length = 4 * count) :
    decodeTriples count (encodeTriples count key) = some key := by
  induction count generalizing key with
  | zero => rw [length_eq_zero_iff.mp h]; rfl
  | succ count ih =>
    have hfour : (key.take 4).length = 4 := by
      rw [length_take]
      omega
    have hlt := ofBytes_lt (key.take 4)
    have hbytes := toBytes_ofBytes (key.take 4)
    rw [hfour] at hlt hbytes
    have hrest := @ih (key.drop 4) (by rw [length_drop]; omega)
    unfold encodeTriples encodeTriple wordListLength
    generalize ofBytes (key.take 4) = w0 at hlt hbytes ⊢
    have hmod : w0 % 2 ^ 32 = w0 := Nat.mod_eq_of_lt hlt
    have hvalue : tripleValue (w0 % 1626) ((w0 / 1626 + w0 % 1626) % 1626)
        ((w0 / 1626 / 1626 + (w0 / 1626 + w0 % 1626) % 1626) % 1626) = w0 := by
      have hq : (1626 - w0 % 1626 + (w0 / 1626 + w0 % 1626) % 1626) % 1626 = w0 / 1626 % 1626 := by
        omega
      unfold tripleValue wordListLength
      omega
    simp only [cons_append, nil_append, decodeTriples, hvalue, hmod, wordListLength, hrest,
      if_true, Option.map_some, hbytes, take_append_drop]

theorem encodeTriples_spec (count : Nat) (key : List UInt8) :
    (encodeTriples count key).length = 3 * count ∧
      forall word, word ∈ encodeTriples count key -> word < wordListLength := by
  induction count generalizing key with
  | zero => exact ⟨rfl, nofun⟩
  | succ count ih =>
    rcases ih (key.drop 4) with ⟨hlen, hrest⟩
    have hlt : forall n, n % wordListLength < wordListLength := fun _ => Nat.mod_lt _ (by decide)
    unfold encodeTriples encodeTriple
    refine ⟨?_, ?_⟩
    · rw [length_append, hlen]
      exact Nat.add_comm _ _
    · simp only [cons_append, nil_append, forall_mem_cons]
      exact ⟨hlt _, hlt _, hlt _, hrest⟩

theorem offset_spec {w w' : Nat} (h : w < 1626) (h' : w' < 1626) :
    exists a, (1626 - w + w') % 1626 = a ∧ a < 1626 ∧ (a + w) % 1626 = w' :=
  ⟨_, rfl, Nat.mod_lt _ (by decide), by omega⟩

theorem digits_spec {w a b v : Nat} (h : w < 1626) (ha : a < 1626) (hb : b < 1626)
    (hv : v = w + 1626 * a + 1626 * 1626 * b) :
    (v % 2 ^ 32 % 1626 = w <-> v < 2 ^ 32) ∧ v % 1626 = w ∧
      (v / 1626 + w) % 1626 = (a + w) % 1626 ∧ v / 1626 / 1626 = b := by
  refine ⟨?_, ?_, ?_, ?_⟩
  · omega
  · omega
  · omega
  · omega

theorem decodeTriples_spec {words : List Nat}
    (hall : forall word, word ∈ words -> word < wordListLength)
    (hlen : words.length = 3 * count) :
    (Encodes words <-> exists key, decodeTriples count words = some key) ∧
      forall key, decodeTriples count words = some key -> encodeTriples count key = words := by
  induction count generalizing words with
  | zero =>
    rw [length_eq_zero_iff.mp hlen]
    exact ⟨⟨fun _ => ⟨[], rfl⟩, fun _ => trivial⟩, fun _ _ => rfl⟩
  | succ count ih =>
    rcases words with _ | ⟨w1, _ | ⟨w2, _ | ⟨w3, rest⟩⟩⟩
    · cases hlen
    · rw [length_singleton] at hlen
      omega
    · cases hlen
    simp only [forall_mem_cons] at hall
    rcases hall with ⟨h1, h2, h3, hrest⟩
    rcases offset_spec h1 h2 with ⟨a, ha, hsmall, hw2⟩
    rcases offset_spec h2 h3 with ⟨b, hb, hsmall', hw3⟩
    have hw0 : tripleValue w1 w2 w3 = w1 + 1626 * a + 1626 * 1626 * b := by
      unfold tripleValue wordListLength
      rw [ha, hb]
    rcases digits_spec h1 hsmall hsmall' hw0 with ⟨hvalue, hlow, hmid, hhigh⟩
    have hencode : encodeTriple (tripleValue w1 w2 w3) = [w1, w2, w3] := by
      unfold encodeTriple wordListLength
      simp only [hlow, hmid, hhigh, hw2, hw3]
    rcases ih hrest (by simp only [length_cons] at hlen; omega) with ⟨hdecodes, hspec⟩
    simp only [Encodes, decodeTriples, wordListLength, hvalue, hdecodes]
    split
    next hlt =>
      rw [Nat.mod_eq_of_lt hlt]
      simp only [hlt, true_and, Option.map_eq_some_iff]
      refine ⟨⟨fun h => h.elim fun key hkey => ⟨_, key, hkey, rfl⟩, ?_⟩, ?_⟩
      · rintro ⟨_, key, hkey, _⟩
        exact ⟨key, hkey⟩
      · rintro _ ⟨key, hkey, rfl⟩
        rw [encodeTriples, take_left' (length_toBytes 4 _), drop_left' (length_toBytes 4 _),
          ofBytes_toBytes hlt, hencode, hspec key hkey]
        rfl
    next hlt =>
      refine ⟨⟨fun h => absurd h.1 hlt, ?_⟩, ?_⟩
      · rintro ⟨_, hnone⟩
        cases hnone
      · intro _ hnone
        cases hnone

/-! ## Seeds -/

theorem wordsToBytes_eq (hpos : 0 < count) {half : Nat} {words tail : List Nat}
    (hlen : words.length = 3 * half)
    (h : tail = [] ∧ (half = count ∨ 2 * half = count) ∨ half = count ∧
      exists checksum, tail = [checksum] ∧ checksumTest language (words ++ tail) = true)
    (duplicate : Bool) :
    wordsToBytes language (words ++ tail) (4 * count) duplicate = decodeTriples half words := by
  have hexpected : 4 * count * 8 * 3 / 32 = 3 * count := by omega
  have hhalf : ¬ words.length = 4 * count * 3 / 32 / 2 := by omega
  have hzero : (4 * count == 0) = false := beq_false_of_ne (by omega)
  have hthird : words.length / 3 = half := by omega
  unfold wordsToBytes
  simp only [hexpected, hzero, Bool.false_or]
  rw [if_neg (by omega)]
  rcases h with ⟨rfl, h⟩ | ⟨rfl, checksum, rfl, htest⟩
  · have hsum : (words.length == 3 * count + 1) = false := beq_false_of_ne (by omega)
    simp only [append_nil, hsum, Bool.false_and, Bool.false_eq_true, if_false, hthird, hhalf,
      and_false, Option.map_id']
    exact if_neg (by omega)
  · have hsum : ((words ++ [checksum]).length == 3 * half + 1) = true := by
      rw [length_append, hlen]
      exact beq_self_eq_true _
    simp only [hsum, htest, Bool.not_true, Bool.and_false, Bool.false_eq_true, if_false, if_true,
      dropLast_concat, hthird, hhalf, and_false, Option.map_id']
    exact if_neg fun hne => hne.2.2.2 (beq_iff_eq.mp hsum)

theorem bytesToWords_eq (hpos : 0 < count) {key : List UInt8}
    (h : key.length = 4 * count) :
    exists checksum,
      bytesToWords language key = some (encodeTriples count key ++ [checksum]) ∧
      checksumTest language (encodeTriples count key ++ [checksum]) = true := by
  have hcount : key.length / 4 = count := by omega
  have hindex : createChecksumIndex language (encodeTriples count key) <
      (encodeTriples count key).length :=
    Nat.mod_lt _ (by rw [(encodeTriples_spec count key).1]; omega)
  have hget := getElem?_eq_getElem hindex
  generalize (encodeTriples count key)[createChecksumIndex language (encodeTriples count key)] =
    checksum at hget
  refine ⟨checksum, ?_, ?_⟩
  · unfold bytesToWords
    simp only [hcount, hget]
    exact if_neg (by omega)
  · unfold checksumTest
    simp only [dropLast_concat, getLast?_concat, hget]
    exact language.wordEqual_self checksum

/-- Every key is read back from its seed, with the checksum and without; a seed is accepted
exactly if its triples spell numbers of 32 bits, and it is then the seed of its key.  A seed
of half the length is read as asked exactly if no duplicate is asked for. -/
theorem mnemonicSeeds_iff (hpos : 0 < count) :
    (forall key, key.length = 4 * count -> exists words checksum,
      bytesToWords language key = some (words ++ [checksum]) ∧ forall duplicate,
        wordsToBytes language (words ++ [checksum]) (4 * count) duplicate = some key ∧
        wordsToBytes language words (4 * count) duplicate = some key) ∧
    (forall words duplicate, (forall word, word ∈ words -> word < wordListLength) ->
      words.length = 3 * count ->
      (Encodes words <-> exists key, wordsToBytes language words (4 * count) duplicate = some key) ∧
      forall key, wordsToBytes language words (4 * count) duplicate = some key ->
        encodeTriples count key = words) ∧
    forall half key duplicate, 2 * half = count -> key.length = 4 * half ->
      (wordsToBytes language (encodeTriples half key) (4 * count) duplicate =
          some (if duplicate then key ++ key else key) <->
        duplicate = false) := by
  have hplain : forall {half words} duplicate, words.length = 3 * half ->
      half = count ∨ 2 * half = count ->
      wordsToBytes language words (4 * count) duplicate = decodeTriples half words := by
    intro half words duplicate hlen h
    have heq := wordsToBytes_eq language hpos hlen (Or.inl ⟨rfl, h⟩) duplicate
    rwa [append_nil] at heq
  refine ⟨?_, ?_, ?_⟩
  · intro key hkey
    have hlen := (encodeTriples_spec count key).1
    rcases bytesToWords_eq language hpos hkey with ⟨checksum, hwords, htest⟩
    refine ⟨_, checksum, hwords, fun duplicate => ?_⟩
    rw [hplain duplicate hlen (Or.inl rfl),
      wordsToBytes_eq language hpos hlen (Or.inr ⟨rfl, checksum, rfl, htest⟩),
      decode_encode hkey]
    exact ⟨rfl, rfl⟩
  · intro words duplicate hall hlen
    rw [hplain duplicate hlen (Or.inl rfl)]
    exact decodeTriples_spec hall hlen
  · intro half key duplicate hhalf hkey
    rw [hplain duplicate (encodeTriples_spec half key).1 (Or.inr hhalf), decode_encode hkey]
    cases duplicate with
    | false => simp
    | true =>
      have hne : key ≠ [] := ne_nil_of_length_pos (by omega)
      simp [hne]

def plainLanguage : Language where
  crc32 := fun _ => 0
  wordEqual := fun a b => a == b
  wordEqual_self := beq_self_eq_true

theorem mnemonicSeeds_iff_zeroKey :
    exists words checksum,
      bytesToWords plainLanguage (replicate 32 0) = some (words ++ [checksum]) ∧
      forall duplicate,
        wordsToBytes plainLanguage (words ++ [checksum]) 32 duplicate = some (replicate 32 0) ∧
        wordsToBytes plainLanguage words 32 duplicate = some (replicate 32 0) :=
  (mnemonicSeeds_iff plainLanguage (by decide : 0 < 8)).1 _ rfl

/-- Twelve words are not expanded to a key of 32 bytes. -/
theorem halfSeed_not_duplicated :
    wordsToBytes plainLanguage (replicate 12 0) 32 true = some (replicate 16 0) := by
  decide

end Beldex.Mnemonics
