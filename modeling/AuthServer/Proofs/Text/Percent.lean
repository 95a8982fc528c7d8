import AuthServer.Proofs.Text.Utf8
import AuthServer.Text.Form

/-!
# Percent-encoded text read back

Encoded text consists of letters, digits and a few marks. A form reader gives
the text back: no plus sign is among the marks, and every escape stands for the
byte that it was written for.
-/

namespace AuthServer.Text

namespace Percent

/-- The characters of percent-encoded text. -/
def isEncoded (c : Char) : Bool := c.isAlphanum || ['-', '_', '.', '~', '%'].contains c

theorem isEncoded_encodeByte {b : UInt8} {c : Char} (h : c ∈ encodeByte b) : isEncoded c = true := by
  have hall : ∀ n < 256, (encodeByte (UInt8.ofNat n)).all isEncoded = true := by decide +kernel
  have hb := hall b.toNat b.toNat_lt
  rw [UInt8.ofNat_toNat] at hb
  exact List.all_eq_true.1 hb c h

theorem isEncoded_encodeChars {cs : List Char} {c : Char} (h : c ∈ encodeChars cs) :
    isEncoded c = true := by
  obtain ⟨b, -, hc⟩ := List.mem_flatMap.1 h
  exact isEncoded_encodeByte hc

theorem plain_of_isEncoded {c : Char} (h : isEncoded c = true) : c.toNat < 0x80 := by
  rcases Bool.or_eq_true_iff.1 h with h | h
  · have hclass : (c.isUpper || c.isLower || c.isDigit) = true := h
    rcases Bool.or_eq_true_iff.1 hclass with h | h
    · rcases Bool.or_eq_true_iff.1 h with h | h
      · have hle : c.val ≤ 'Z'.val := (of_decide_eq_true h).2
        exact Nat.lt_of_le_of_lt hle (by decide)
      · have hle : c.val ≤ 'z'.val := of_decide_eq_true (Bool.and_eq_true_iff.1 h).2
        exact Nat.lt_of_le_of_lt hle (by decide)
    · have hle : c.val ≤ '9'.val := of_decide_eq_true (Bool.and_eq_true_iff.1 h).2
      exact Nat.lt_of_le_of_lt hle (by decide)
  · have hmarks : ['-', '_', '.', '~', '%'].all (fun d => d.toNat < 0x80) = true := by decide
    exact of_decide_eq_true (List.all_eq_true.1 hmarks c (List.contains_iff_mem.1 h))

theorem isEncoded_encode {s : String} {c : Char} (h : c ∈ (encode s).toList) : isEncoded c = true := by
  rw [encode, String.toList_ofList] at h
  exact isEncoded_encodeChars h

/-! ## Bytes -/

/-- The byte of a plain character. -/
def byteOf (c : Char) : UInt8 := UInt8.ofNat c.toNat

theorem byteOf_injective {c d : Char} (hc : c.toNat < 0x80) (hd : d.toNat < 0x80)
    (h : byteOf c = byteOf d) : c = d := by
  have hn := congrArg UInt8.toNat h
  rw [byteOf, byteOf, Utf8.toNat_ofNat (by omega), Utf8.toNat_ofNat (by omega)] at hn
  rw [← Char.ofNat_toNat c, hn, Char.ofNat_toNat]

theorem bytes_encode (s : String) : Utf8.bytes (encode s) = (encodeChars s.toList).map byteOf := by
  rw [Utf8.bytes, encode, String.toList_ofList]
  exact Utf8.encode_plain fun c hc => plain_of_isEncoded (isEncoded_encodeChars hc)

/-- A mark that encoding does not use is no byte of the encoded text. -/
theorem byteOf_ne {d c : Char} (hd : isEncoded d = false) (hplain : d.toNat < 0x80)
    (hc : isEncoded c = true) : byteOf c ≠ byteOf d := by
  intro h
  rw [byteOf_injective (plain_of_isEncoded hc) hplain h, hd] at hc
  cases hc

theorem notMem_bytes_encode {d : Char} (hd : isEncoded d = false) (hplain : d.toNat < 0x80)
    (s : String) : byteOf d ∉ Utf8.bytes (encode s) := by
  rw [bytes_encode]
  intro hmem
  obtain ⟨c, hc, heq⟩ := List.mem_map.1 hmem
  exact byteOf_ne hd hplain (isEncoded_encodeChars hc) heq

/-! ## Reading -/

theorem decode_cons_of_ne {b : UInt8} (h : b ≠ 0x25) (bs : List UInt8) :
    decode (b :: bs) = b :: decode bs := by
  rw [decode]
  rintro _ _ _ rfl
  exact absurd rfl h

theorem hexValue?_hexDigit {x : Nat} (h : x < 16) : hexValue? (byteOf (hexDigit x)) = some x := by
  have hall : ∀ x < 16, hexValue? (byteOf (hexDigit x)) = some x := by decide
  exact hall x h

theorem decode_encodeByte (b : UInt8) (bs : List UInt8) :
    decode ((encodeByte b).map byteOf ++ bs) = b :: decode bs := by
  unfold encodeByte
  split
  · rename_i hb
    have hsame : byteOf (Char.ofNat b.toNat) = b := by
      have hall : ∀ n < 256, byteOf (Char.ofNat n) = UInt8.ofNat n := by decide +kernel
      rw [hall b.toNat b.toNat_lt, UInt8.ofNat_toNat]
    have hne : b ≠ 0x25 := by
      rintro rfl
      exact absurd hb (by decide)
    rw [List.map_singleton, List.singleton_append, hsame, decode_cons_of_ne hne]
  · have hb := b.toNat_lt
    show decode (0x25 :: byteOf (hexDigit (b.toNat / 16)) :: byteOf (hexDigit (b.toNat % 16)) :: bs) = _
    rw [decode, hexValue?_hexDigit (by omega), hexValue?_hexDigit (by omega)]
    show UInt8.ofNat (16 * (b.toNat / 16) + b.toNat % 16) :: decode bs = _
    rw [Nat.div_add_mod, UInt8.ofNat_toNat]

theorem decode_flatMap_encodeByte (bs : List UInt8) :
    decode ((bs.flatMap encodeByte).map byteOf) = bs := by
  induction bs with
  | nil => rfl
  | cons b bs ih => rw [List.flatMap_cons, List.map_append, decode_encodeByte, ih]

end Percent

namespace Form

/-- A form reader gives encoded text back. -/
theorem decodeText_encode (s : String) : decodeText (Utf8.bytes (Percent.encode s)) = s := by
  have hplus : Percent.byteOf '+' ∉ Utf8.bytes (Percent.encode s) :=
    Percent.notMem_bytes_encode (by decide) (by decide) s
  have hkept : (Utf8.bytes (Percent.encode s)).map (fun b => if b = 0x2B then 0x20 else b) =
      Utf8.bytes (Percent.encode s) := by
    refine Eq.trans (List.map_congr_left fun b hb => ?_) (List.map_id _)
    have hne : b ≠ 0x2B := by
      rintro rfl
      exact hplus hb
    rw [if_neg hne, id]
  unfold decodeText
  rw [hkept, Percent.bytes_encode, Percent.encodeChars, Percent.decode_flatMap_encodeByte,
    Utf8.decodeLossy_encode, String.ofList_toList]

end Form

end AuthServer.Text
