/-
  UTF-8, and the decoder that puts a replacement where it can read nothing.

  1. `toNat_of_mem_utf8EncodeChar` — an ASCII byte is a character of its own.
  2. `decodeReplace_utf8` — **a text comes back** from its bytes.
  3. `decodeReplace_ne_nil` — no bytes are lost without a trace.
-/
import Mathlib.Data.List.Basic

namespace NuSelf.Lib

/-! ## Encoding -/

/-- `str.encode("utf-8")` of a text without surrogates. -/
def utf8 (text : List Char) : List UInt8 := text.flatMap String.utf8EncodeChar

theorem utf8_nil : utf8 [] = [] := rfl

theorem utf8_cons (c : Char) (text : List Char) :
    utf8 (c :: text) = String.utf8EncodeChar c ++ utf8 text := rfl

theorem utf8_append (text text' : List Char) : utf8 (text ++ text') = utf8 text ++ utf8 text' :=
  List.flatMap_append

theorem utf8EncodeChar_ne_nil (c : Char) : String.utf8EncodeChar c ≠ [] := by
  intro hnil
  have hlen := String.length_utf8EncodeChar c
  rw [hnil] at hlen
  exact absurd hlen.symm (Nat.ne_of_gt c.utf8Size_pos)

/-- Every byte of a code that is longer than one byte has its highest bit set. -/
theorem toNat_of_mem_utf8EncodeChar {c : Char} {b : UInt8} (h : b ∈ String.utf8EncodeChar c)
    (hb : b.toNat < 128) : c.toNat = b.toNat := by
  have hhigh : ∀ n : Nat, 128 ≤ n → n < 256 → b ≠ UInt8.ofNat n := by
    rintro n hn hlt rfl
    rw [UInt8.toNat_ofNat'] at hb
    omega
  rw [String.utf8EncodeChar] at h
  by_cases hone : c.val.toNat ≤ 0x7f
  · rw [if_pos hone] at h
    rw [List.mem_singleton.mp h, UInt8.toNat_ofNat']
    have hval : c.val.toNat = c.toNat := rfl
    omega
  · exfalso
    rw [if_neg hone] at h
    split at h
    · simp only [List.mem_cons, List.not_mem_nil, or_false] at h
      rcases h with h | h
      · exact hhigh _ (by omega) (by omega) h
      · exact hhigh _ (by omega) (by omega) h
    · split at h
      · simp only [List.mem_cons, List.not_mem_nil, or_false] at h
        rcases h with h | h | h
        · exact hhigh _ (by omega) (by omega) h
        · exact hhigh _ (by omega) (by omega) h
        · exact hhigh _ (by omega) (by omega) h
      · simp only [List.mem_cons, List.not_mem_nil, or_false] at h
        rcases h with h | h | h | h
        · exact hhigh _ (by omega) (by omega) h
        · exact hhigh _ (by omega) (by omega) h
        · exact hhigh _ (by omega) (by omega) h
        · exact hhigh _ (by omega) (by omega) h

/-! ## Decoding -/

/-- A byte that goes on with a code. -/
def isContinuation (b : UInt8) : Bool := 0x80 ≤ b && b < 0xc0

/-- Whether a code of three or four bytes can begin like this. -/
def secondFits (lead second : UInt8) : Bool :=
  if lead = 0xe0 then 0xa0 ≤ second && second < 0xc0
  else if lead = 0xed then 0x80 ≤ second && second < 0xa0
  else if lead = 0xf0 then 0x90 ≤ second && second < 0xc0
  else if lead = 0xf4 then 0x80 ≤ second && second < 0x90
  else 0xe1 ≤ lead && lead < 0xf4 && isContinuation second

/-- How many bytes are replaced together where no code is: as many as could have begun one. -/
def brokenLength : List UInt8 → Nat
  | lead :: second :: third :: _ =>
    if secondFits lead second then if 0xf0 ≤ lead && isContinuation third then 3 else 2 else 1
  | [lead, second] => if secondFits lead second then 2 else 1
  | _ => 1

/-- `bytes.decode("utf-8", errors="replace")` behind so many bytes. -/
def decodeBehind : Nat → List UInt8 → List Char
  | _, [] => []
  | skip + 1, _ :: rest => decodeBehind skip rest
  | 0, b :: rest =>
    match (b :: rest).toByteArray.utf8DecodeChar? 0 with
    | some c => c :: decodeBehind (c.utf8Size - 1) rest
    | none => '\ufffd' :: decodeBehind (brokenLength (b :: rest) - 1) rest

def decodeReplace (bytes : List UInt8) : List Char := decodeBehind 0 bytes

theorem decodeBehind_append : ∀ bytes rest : List UInt8,
    decodeBehind bytes.length (bytes ++ rest) = decodeBehind 0 rest
  | [], _ => rfl
  | _ :: bytes, rest => decodeBehind_append bytes rest

/-- **A text comes back.** -/
theorem decodeReplace_utf8 : ∀ text : List Char, decodeReplace (utf8 text) = text
  | [] => rfl
  | c :: text => by
    have hread : ∀ rest : List UInt8,
        (String.utf8EncodeChar c ++ rest).toByteArray.utf8DecodeChar? 0 = some c := by
      intro rest
      rw [List.toByteArray_append]
      exact ByteArray.utf8DecodeChar?_utf8EncodeChar_append
    have hlength := String.length_utf8EncodeChar c
    rw [decodeReplace, utf8_cons]
    cases hcode : String.utf8EncodeChar c with
    | nil => exact absurd hcode (utf8EncodeChar_ne_nil c)
    | cons b code =>
      rw [hcode] at hread hlength
      have hskip : c.utf8Size - 1 = code.length := by
        rw [← hlength, List.length_cons, Nat.add_sub_cancel]
      show decodeBehind 0 (b :: (code ++ utf8 text)) = _
      rw [decodeBehind, ← List.cons_append, hread]
      dsimp only
      rw [hskip, decodeBehind_append]
      exact congrArg (c :: ·) (decodeReplace_utf8 text)

theorem decodeReplace_ne_nil {bytes : List UInt8} (h : bytes ≠ []) : decodeReplace bytes ≠ [] := by
  obtain ⟨b, rest, rfl⟩ := List.exists_cons_of_ne_nil h
  rw [decodeReplace, decodeBehind]
  split <;> exact List.cons_ne_nil _ _

end NuSelf.Lib
