import Mathlib.Data.List.Basic

namespace PercentEncoding

def hexDigits : List Char :=
  ['0','1','2','3','4','5','6','7','8','9','A','B','C','D','E','F']

def digit (value : Nat) : Char := hexDigits.getD value '0'

-- Both cases are read, only capitals are written.
def hexValue (c : Char) : Option Nat :=
  if '0' ≤ c ∧ c ≤ '9' then some (c.toNat - '0'.toNat)
  else if 'A' ≤ c ∧ c ≤ 'F' then some (c.toNat - 'A'.toNat + 10)
  else if 'a' ≤ c ∧ c ≤ 'f' then some (c.toNat - 'a'.toNat + 10)
  else none

def escape (byte : UInt8) : List Char := ['%',digit (byte.toNat / 16),digit (byte.toNat % 16)]

def encodeChar (allowed : Char → Bool) (c : Char) : List Char :=
  if allowed c then [c] else (String.utf8EncodeChar c).flatMap escape

def encode (allowed : Char → Bool) (text : List Char) : List Char := text.flatMap (encodeChar allowed)

def decodeBytes : List Char → Option (List UInt8)
  | [] => some []
  | '%' :: high :: low :: rest =>
      match hexValue high,hexValue low with
      | some high,some low => (decodeBytes rest).map (UInt8.ofNat (high * 16 + low) :: ·)
      | _,_ => none
  | c :: rest => if c = '%' then none else (decodeBytes rest).map (String.utf8EncodeChar c ++ ·)

def decode (text : List Char) : Option (List Char) :=
  (decodeBytes text).bind fun bytes => bytes.toByteArray.utf8Decode?.map (·.toList)

variable {allowed : Char → Bool} {text left right : List Char} {c : Char} {byte : UInt8}

theorem digit_hex (below : value < 16) : digit value ∈ hexDigits := by
  have inside : value < hexDigits.length := below
  simp [digit,inside]

theorem hexValue_digit (below : value < 16) : hexValue (digit value) = some value := by
  have every : ∀ value < 16, hexValue (digit value) = some value := by decide
  exact every value below

theorem decode_plain (plain : c ≠ '%') :
    decodeBytes (c :: text) = (decodeBytes text).map (String.utf8EncodeChar c ++ ·) := by
  rw [decodeBytes.eq_3]
  · exact if_neg plain
  · rintro high low rest rfl
    exact absurd rfl plain

theorem decode_escape : decodeBytes (escape byte ++ text) = (decodeBytes text).map (byte :: ·) := by
  have size : byte.toNat < 256 := byte.toNat_lt
  have whole : byte.toNat / 16 * 16 + byte.toNat % 16 = byte.toNat := by omega
  simp only [escape,List.cons_append,List.nil_append]
  rw [decodeBytes.eq_2,hexValue_digit (by omega),hexValue_digit (by omega)]
  simp only [whole,UInt8.ofNat_toNat]

theorem decode_escapes (bytes : List UInt8) :
    decodeBytes (bytes.flatMap escape ++ text) = (decodeBytes text).map (bytes ++ ·) := by
  induction bytes with
  | nil => simp
  | cons byte rest ih =>
      rw [List.flatMap_cons,List.append_assoc,decode_escape,ih,Option.map_map]
      rfl

theorem decode_encodeChar (percent : allowed '%' = false) :
    decodeBytes (encodeChar allowed c ++ text) = (decodeBytes text).map (String.utf8EncodeChar c ++ ·) := by
  unfold encodeChar
  split
  · rename_i kept
    have plain : c ≠ '%' := by
      rintro rfl
      simp [percent] at kept
    exact decode_plain plain
  · exact decode_escapes _

theorem decode_encode_append (percent : allowed '%' = false) :
    decodeBytes (encode allowed text ++ right) = (decodeBytes right).map (text.flatMap String.utf8EncodeChar ++ ·) := by
  induction text with
  | nil => simp [encode]
  | cons c rest ih =>
      unfold encode at ih ⊢
      rw [List.flatMap_cons,List.append_assoc,decode_encodeChar percent,ih,Option.map_map]
      simp [Function.comp_def]

theorem decode_encode (percent : allowed '%' = false) : decode (encode allowed text) = some text := by
  have bytes : decodeBytes (encode allowed text ++ []) = _ := decode_encode_append percent
  rw [List.append_nil] at bytes
  have whole : (text.flatMap String.utf8EncodeChar).toByteArray.utf8Decode? = some text.toArray := List.utf8Decode?_utf8Encode
  simp [decode,bytes,decodeBytes,whole]

theorem decode_unescaped (plain : '%' ∉ text) :
    decodeBytes (text ++ right) = (decodeBytes right).map (text.flatMap String.utf8EncodeChar ++ ·) := by
  induction text with
  | nil => simp
  | cons c rest ih =>
      obtain ⟨different,inner⟩ := not_or.mp (List.mem_cons.not.mp plain)
      rw [List.cons_append,decode_plain (Ne.symm different),ih inner,Option.map_map]
      simp [Function.comp_def]

theorem decode_same (plain : '%' ∉ text) : decode text = some text := by
  have bytes : decodeBytes (text ++ []) = _ := decode_unescaped plain
  rw [List.append_nil] at bytes
  have whole : (text.flatMap String.utf8EncodeChar).toByteArray.utf8Decode? = some text.toArray := List.utf8Decode?_utf8Encode
  simp [decode,bytes,decodeBytes,whole]

theorem encode_injective (percent : allowed '%' = false) (same : encode allowed left = encode allowed right) : left = right := by
  have back := congrArg decode same
  rw [decode_encode percent,decode_encode percent] at back
  exact Option.some.inj back

theorem encode_characters (inside : c ∈ encode allowed text) : allowed c = true ∧ c ∈ text ∨ c = '%' ∨ c ∈ hexDigits := by
  obtain ⟨source,member,inside⟩ := List.mem_flatMap.mp inside
  unfold encodeChar at inside
  split at inside
  · rename_i kept
    have same := List.mem_singleton.mp inside
    exact .inl ⟨same ▸ kept,same ▸ member⟩
  · obtain ⟨byte,_,inside⟩ := List.mem_flatMap.mp inside
    have size : byte.toNat < 256 := byte.toNat_lt
    simp only [escape,List.mem_cons,List.not_mem_nil,or_false] at inside
    rcases inside with percent | high | low
    · exact .inr (.inl percent)
    · exact .inr (.inr (high ▸ digit_hex (by omega)))
    · exact .inr (.inr (low ▸ digit_hex (by omega)))

theorem encode_avoids (absent : c ∉ text) (percent : c ≠ '%') (hex : c ∉ hexDigits) : c ∉ encode allowed text := by
  intro inside
  rcases encode_characters inside with kept | same | digit
  · exact absent kept.2
  · exact percent same
  · exact hex digit

theorem encode_append : encode allowed (left ++ right) = encode allowed left ++ encode allowed right := List.flatMap_append

theorem encode_kept (kept : allowed c = true) : encode allowed (c :: text) = c :: encode allowed text := by
  simp [encode,encodeChar,kept]

theorem encode_empty : encode allowed text = [] ↔ text = [] := by
  constructor
  · intro nothing
    cases text with
    | nil => rfl
    | cons c rest =>
        have first : encodeChar allowed c ≠ [] := by
          unfold encodeChar
          split
          · simp
          · obtain ⟨byte,bytes,known⟩ := List.exists_cons_of_ne_nil (String.utf8EncodeChar_ne_nil (c := c))
            simp [known,escape]
        exact absurd (List.append_eq_nil_iff.mp nothing).1 first
  · rintro rfl
    rfl

end PercentEncoding
