import Mathlib.Data.List.Basic
import Summand.Text.Utf8

/-! A byte below 128 is a character by itself wherever it stands among the bytes of a text.
So text may be parted from bytes in front of it if it is all made of such characters:
whether the bytes are a text does not depend on it. -/
namespace Summand.AsciiBytes
open Utf8

/-- A character that is written as one byte. -/
def Ascii (c : Char) : Prop := c.toNat < 128

instance : DecidablePred Ascii := fun c => inferInstanceAs (Decidable (c.toNat < 128))

theorem encodeChar_ascii {c : Char} (ascii : Ascii c) :
    String.utf8EncodeChar c = [UInt8.ofNat c.toNat] := by
  rw [String.utf8EncodeChar]
  exact if_pos (Nat.le_of_lt_succ ascii)

/-- A character that has a byte below 128 has no other byte. -/
theorem encodeChar_of_byte {c : Char} {byte : UInt8} (member : byte ∈ String.utf8EncodeChar c)
    (low : byte.toNat < 128) : String.utf8EncodeChar c = [byte] ∧ c.toNat = byte.toNat := by
  have same : c.val.toNat = c.toNat := rfl
  by_cases ascii : c.toNat < 128
  · rw [encodeChar_ascii ascii] at member ⊢
    cases List.mem_singleton.mp member
    exact ⟨rfl, by rw [UInt8.toNat_ofNat']; omega⟩
  · -- In a longer sequence every byte has its highest bit set.
    have long : ¬ c.val.toNat ≤ 127 := by omega
    rw [String.utf8EncodeChar, if_neg long] at member
    split at member
    · simp only [List.mem_cons, List.not_mem_nil, or_false] at member
      rcases member with rfl | rfl <;> rw [UInt8.toNat_ofNat'] at low <;> omega
    · split at member <;> simp only [List.mem_cons, List.not_mem_nil, or_false] at member
      · rcases member with rfl | rfl | rfl <;> rw [UInt8.toNat_ofNat'] at low <;> omega
      · rcases member with rfl | rfl | rfl | rfl <;> rw [UInt8.toNat_ofNat'] at low <;> omega

/-- A byte below 128 in a text is one of its characters. -/
theorem mem_encode_low {text : String} {byte : UInt8} (member : byte ∈ encode text)
    (low : byte.toNat < 128) : ∃ c ∈ text.toList, c.toNat = byte.toNat := by
  obtain ⟨c, inside, found⟩ := List.mem_flatMap.mp member
  exact ⟨c, inside, (encodeChar_of_byte found low).2⟩

/-- Where some bytes and an ASCII character are a text together, that character is the last
one and the bytes are the text in front of it. -/
theorem encode_concat {text : String} {bytes : List UInt8} {c : Char} (ascii : Ascii c)
    (whole : encode text = bytes ++ String.utf8EncodeChar c) :
    ∃ front, encode front = bytes := by
  rw [encodeChar_ascii ascii] at whole
  rcases List.eq_nil_or_concat text.toList with empty | ⟨front, last, split⟩
  · simp [encode, empty] at whole
  · obtain ⟨lead, byte, parts⟩ :=
      (List.eq_nil_or_concat (String.utf8EncodeChar last)).resolve_left String.utf8EncodeChar_ne_nil
    rw [List.concat_eq_append] at split parts
    rw [encode, split, List.flatMap_append, List.flatMap_singleton, parts, ← List.append_assoc] at whole
    obtain ⟨before, same⟩ := List.append_inj' whole rfl
    cases same
    -- The last byte of the last character is below 128, so that character has no other byte.
    have low : (UInt8.ofNat c.toNat).toNat < 128 := by
      have bound : c.toNat < 128 := ascii
      rw [UInt8.toNat_ofNat']
      omega
    have alone := (encodeChar_of_byte (c := last) (by rw [parts]; simp) low).1
    obtain rfl : lead = [] := by simpa [parts] using alone
    exact ⟨String.ofList front, by rw [← before, encode, String.toList_ofList, List.append_nil]⟩

/-- Bytes in front of an ASCII character are a text exactly when they are a text with it. -/
theorem decode?_push {c : Char} (ascii : Ascii c) (bytes : List UInt8) :
    decode? (bytes ++ String.utf8EncodeChar c) = (decode? bytes).map (·.push c) := by
  cases found : decode? bytes with
  | some text =>
    rw [Option.map_some, decode?_eq_some_iff, ← decode?_eq_some_iff.mp found]
    simp [encode]
  | none =>
    rw [Option.map_none, Option.eq_none_iff_forall_ne_some]
    intro whole decoded
    obtain ⟨front, spelled⟩ := encode_concat ascii (decode?_eq_some_iff.mp decoded)
    rw [decode?_eq_some_iff.mpr spelled] at found
    cases found

/-- Whether bytes are a text does not depend on ASCII text behind them. -/
theorem decode?_append {tail : List Char} (ascii : ∀ c ∈ tail, Ascii c) (bytes : List UInt8) :
    decode? (bytes ++ tail.flatMap String.utf8EncodeChar) =
      (decode? bytes).map (· ++ String.ofList tail) := by
  induction tail generalizing bytes with
  | nil => simp
  | cons c tail ih =>
    rw [List.flatMap_cons, ← List.append_assoc, ih fun d member => ascii d (by simp [member]),
      decode?_push (ascii c (by simp)), Option.map_map]
    have joined : ∀ text : String, text.push c ++ String.ofList tail =
        text ++ String.ofList (c :: tail) := fun text => String.toList_inj.mp (by simp)
    simp [Function.comp_def, joined]

end Summand.AsciiBytes
