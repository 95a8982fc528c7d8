import AuthServer.Text.Utf8

/-!
# UTF-8 read back

Every character is read back from its own bytes, whatever stands behind them.
So a text is read back from its bytes without a replacement character.
-/

namespace AuthServer.Text.Utf8

theorem scan_lead {b : UInt8} {bs : List UInt8} {l : Lead} (h : lead? b.toNat = some l) :
    scan (b :: bs) =
      (follow l.follow l.low l.high l.bits bs).1.map Char.ofNat ::
        scan (follow l.follow l.low l.high l.bits bs).2 := by
  rw [scan, h]

theorem follow_succ {n low high bits : Nat} {b : UInt8} {bs : List UInt8} (hl : low ≤ b.toNat)
    (hh : b.toNat ≤ high) :
    follow (n + 1) low high bits (b :: bs) = follow n 0x80 0xBF (bits * 64 + (b.toNat - 0x80)) bs := by
  rw [follow, if_pos ⟨hl, hh⟩]

theorem toNat_ofNat {n : Nat} (h : n < 256) : (UInt8.ofNat n).toNat = n := by
  rw [UInt8.toNat_ofNat', Nat.mod_eq_of_lt h]

/-- A byte after the first carries six bits. -/
theorem follow_tail {n bits x : Nat} {bs : List UInt8} (hx : x < 64) :
    follow (n + 1) 0x80 0xBF bits (UInt8.ofNat (0x80 + x) :: bs) =
      follow n 0x80 0xBF (bits * 64 + x) bs := by
  have hb : (UInt8.ofNat (0x80 + x)).toNat = 0x80 + x := toNat_ofNat (by omega)
  rw [follow_succ (by omega) (by omega), hb, Nat.add_sub_cancel_left]

/-! ## First bytes -/

theorem lead?_two {x : Nat} (hx : 2 ≤ x) (h : x < 32) :
    lead? (0xC0 + x) = some ⟨1, 0x80, 0xBF, x⟩ := by
  unfold lead?
  rw [if_neg (by omega), if_neg (by omega), if_pos (by omega), Nat.add_sub_cancel_left]

/-- What follows the first of three bytes fits, as the character is no surrogate. -/
theorem lead?_three {n : Nat} (hlow : 0x800 ≤ n) (hhigh : n < 0x10000)
    (hsurrogate : n < 0xD800 ∨ 0xDFFF < n) :
    ∃ low high, lead? (0xE0 + n / 4096) = some ⟨2, low, high, n / 4096⟩ ∧
      low ≤ 0x80 + n / 64 % 64 ∧ 0x80 + n / 64 % 64 ≤ high := by
  unfold lead?
  rw [if_neg (by omega), if_neg (by omega), if_neg (by omega)]
  by_cases hzero : n / 4096 = 0
  · rw [hzero, if_pos rfl]
    exact ⟨_, _, rfl, by omega, by omega⟩
  rw [if_neg (by omega)]
  by_cases hlast : n / 4096 = 0xD
  · rw [hlast, if_pos rfl]
    exact ⟨_, _, rfl, by omega, by omega⟩
  · rw [if_neg (by omega), if_pos (by omega), Nat.add_sub_cancel_left]
    exact ⟨_, _, rfl, by omega, by omega⟩

theorem lead?_four {n : Nat} (hlow : 0x10000 ≤ n) (hhigh : n < 0x110000) :
    ∃ low high, lead? (0xF0 + n / 262144) = some ⟨3, low, high, n / 262144⟩ ∧
      low ≤ 0x80 + n / 4096 % 64 ∧ 0x80 + n / 4096 % 64 ≤ high := by
  unfold lead?
  rw [if_neg (by omega), if_neg (by omega), if_neg (by omega), if_neg (by omega),
    if_neg (by omega), if_neg (by omega)]
  by_cases hzero : n / 262144 = 0
  · rw [hzero, if_pos rfl]
    exact ⟨_, _, rfl, by omega, by omega⟩
  rw [if_neg (by omega)]
  by_cases hlast : n / 262144 = 4
  · rw [hlast, if_neg (by omega), if_pos rfl]
    exact ⟨_, _, rfl, by omega, by omega⟩
  · rw [if_pos (by omega), Nat.add_sub_cancel_left]
    exact ⟨_, _, rfl, by omega, by omega⟩

/-! ## Characters and texts -/

theorem scan_encodeChar (c : Char) (bs : List UInt8) :
    scan (encodeChar c ++ bs) = some c :: scan bs := by
  have hvalid : c.toNat < 0xD800 ∨ 0xDFFF < c.toNat ∧ c.toNat < 0x110000 := c.valid
  have hback : ∀ {bits}, bits = c.toNat → some (Char.ofNat bits) = some c := by
    rintro _ rfl
    rw [Char.ofNat_toNat]
  unfold encodeChar
  simp only
  -- by the length of the character's form
  split
  · rename_i h1
    have hlead : lead? (UInt8.ofNat c.toNat).toNat = some ⟨0, 0x80, 0xBF, c.toNat⟩ := by
      rw [toNat_ofNat (by omega), lead?, if_pos h1]
    rw [List.singleton_append, scan_lead hlead, follow]
    exact congrArg (· :: scan bs) (hback rfl)
  split
  · rename_i h1 h2
    have hlead := lead?_two (x := c.toNat / 64) (by omega) (by omega)
    rw [← toNat_ofNat (n := 0xC0 + c.toNat / 64) (by omega)] at hlead
    simp only [List.cons_append, List.nil_append]
    rw [scan_lead hlead]
    simp only
    rw [follow_tail (by omega), follow]
    exact congrArg (· :: scan bs) (hback (by omega))
  split
  · rename_i h1 h2 h3
    obtain ⟨low, high, hlead, hl, hh⟩ := lead?_three (n := c.toNat) (by omega) h3 (by omega)
    rw [← toNat_ofNat (n := 0xE0 + c.toNat / 4096) (by omega)] at hlead
    rw [← toNat_ofNat (n := 0x80 + c.toNat / 64 % 64) (by omega)] at hl hh
    simp only [List.cons_append, List.nil_append]
    rw [scan_lead hlead]
    simp only
    rw [follow_succ hl hh, toNat_ofNat (by omega), Nat.add_sub_cancel_left, follow_tail (by omega),
      follow]
    exact congrArg (· :: scan bs) (hback (by omega))
  · rename_i h1 h2 h3
    obtain ⟨low, high, hlead, hl, hh⟩ := lead?_four (n := c.toNat) (by omega) (by omega)
    rw [← toNat_ofNat (n := 0xF0 + c.toNat / 262144) (by omega)] at hlead
    rw [← toNat_ofNat (n := 0x80 + c.toNat / 4096 % 64) (by omega)] at hl hh
    simp only [List.cons_append, List.nil_append]
    rw [scan_lead hlead]
    simp only
    rw [follow_succ hl hh, toNat_ofNat (by omega), Nat.add_sub_cancel_left, follow_tail (by omega),
      follow_tail (by omega), follow]
    exact congrArg (· :: scan bs) (hback (by omega))

theorem scan_encode (cs : List Char) : scan (encode cs) = cs.map some := by
  induction cs with
  | nil => exact scan.eq_1
  | cons c cs ih =>
    have hcons : encode (c :: cs) = encodeChar c ++ encode cs := List.flatMap_cons
    rw [hcons, scan_encodeChar, ih, List.map_cons]

@[simp] theorem decodeLossy_encode (cs : List Char) : decodeLossy (encode cs) = cs := by
  rw [decodeLossy, scan_encode, List.map_map]
  exact List.map_id cs

/-! ## Plain text -/

theorem encode_append (cs ds : List Char) : encode (cs ++ ds) = encode cs ++ encode ds :=
  List.flatMap_append

/-- A plain character is its own byte. -/
theorem encode_plain {cs : List Char} (h : ∀ c ∈ cs, c.toNat < 0x80) :
    encode cs = cs.map fun c => UInt8.ofNat c.toNat := by
  induction cs with
  | nil => rfl
  | cons c cs ih =>
    obtain ⟨hc, hcs⟩ := List.forall_mem_cons.1 h
    have hcons : encode (c :: cs) = encodeChar c ++ encode cs := List.flatMap_cons
    rw [hcons, ih hcs, encodeChar, if_pos hc]
    rfl

end AuthServer.Text.Utf8
