import Mathlib.Tactic.NormNum
import TonRelayer.Cells
import TonRelayer.ExceptRules

/-! What the readers of a cell give back and how much they take: on bits that were written for
them, and on any bits. -/
namespace CellReading

open ExceptRules Cells

section Written

variable {rest : List Bool} {refs : List Cell}

theorem parser_bind {α β : Type} (x : Parser α) (f : α → Parser β) (p : CellParser) :
    (x >>= f) p = x p >>= fun r => f r.1 r.2 := rfl

theorem bitsToNat_concat (bits bits' : List Bool) :
    bitsToNat (bits ++ bits') = bitsToNat bits * 2 ^ bits'.length + bitsToNat bits' := by
  induction bits' using List.reverseRecOn with
  | nil => simp [bitsToNat]
  | append_singleton bits' b ih =>
    rw [← List.append_assoc, bitsToNat_append, ih, bitsToNat_append, List.length_append,
      List.length_singleton, pow_succ]
    ring

/-- The standard form of an address: the tag `10`, no anycast, the workchain and the hash. -/
def standardBits (a : TonAddress) : List Bool :=
  [true, false, false] ++ (natToBits 8 (a.workchain % 256).toNat ++ bytesBits a.hashPart.toList)

theorem standardBits_length (a : TonAddress) : (standardBits a).length = 267 := by
  simp [standardBits]

theorem loadBits_append {n : ℕ} {bits : List Bool} (h : bits.length = n) :
    loadBits n ⟨bits ++ rest, refs⟩ = .ok (bits, ⟨rest, refs⟩) := by
  rw [loadBits_ok (by simp [h]), List.take_left' h, List.drop_left' h]

theorem loadUint_append {n x : ℕ} (h : x < 2 ^ n) :
    loadUint n ⟨natToBits n x ++ rest, refs⟩ = .ok (x, ⟨rest, refs⟩) := by
  have hlength := natToBits_length n x
  rw [loadUint_ok (by simp), List.take_left' hlength, List.drop_left' hlength,
    bitsToNat_natToBits h]

theorem byteAt (bytes : List UInt8) (i : ℕ) (h : i < bytes.length) :
    ((bytesBits bytes).drop (8 * i)).take 8 = byteBits bytes[i] := by
  induction bytes generalizing i with
  | nil => cases h
  | cons b bytes ih =>
    have hbits : bytesBits (b :: bytes) = byteBits b ++ bytesBits bytes := rfl
    cases i with
    | zero =>
      rw [hbits, Nat.mul_zero, List.drop_zero, List.take_left' (byteBits_length b)]
      rfl
    | succ i =>
      have hsplit : 8 * (i + 1) = (byteBits b).length + 8 * i := by
        rw [byteBits_length]
        ring
      rw [hbits, hsplit, List.drop_length_add_append, List.getElem_cons_succ]
      exact ih i (by simpa using h)

theorem ofFn_bytes {bytes : List UInt8} (h : bytes.length = 32) :
    (List.ofFn fun i : Fin 32 =>
      UInt8.ofNat (bitsToNat (((bytesBits bytes).drop (8 * i)).take 8))) = bytes := by
  apply List.ext_getElem
  · rw [List.length_ofFn, h]
  · intro i h₁ h₂
    rw [List.getElem_ofFn, byteAt bytes i h₂, ofNat_byteBits]

theorem loadBytes32_append (hash : Bytes32) :
    loadBytes32 ⟨bytesBits hash.toList ++ rest, refs⟩ = .ok (hash, ⟨rest, refs⟩) := by
  have hlength : (bytesBits hash.toList).length = 256 := by simp
  rw [loadBytes32, parser_bind, loadBits_append hlength, ok_bind]
  refine congrArg (fun h : Bytes32 => Except.ok (h, _)) (List.Vector.eq _ _ ?_)
  exact ofFn_bytes hash.toList_length

theorem loadInt_append {x : ℤ} (h : -128 ≤ x ∧ x < 128) :
    loadInt 8 ⟨natToBits 8 (x % 256).toNat ++ rest, refs⟩ = .ok (x, ⟨rest, refs⟩) := by
  have hback : Int.bmod ((x % 256).toNat : ℕ) (2 ^ 8) = x := by
    rw [Int.toNat_of_nonneg (by omega), Int.bmod_def]
    split <;> omega
  rw [loadInt, parser_bind, loadUint_append (show (x % 256).toNat < 2 ^ 8 by omega), ok_bind]
  dsimp only
  rw [hback]
  rfl

/-- What follows the tag of a standard address. -/
def loadStandard : Parser TonAddress := do
  let _ ← loadUint 1
  let workchain ← loadInt 8
  let hashPart ← loadBytes32
  return ⟨workchain, hashPart⟩

theorem loadAddress_eq (p : CellParser) : loadAddress p = loadUint 2 p >>= fun r =>
    if r.1 = 0 then .ok (TonAddress.null, r.2) else if r.1 = 2 then loadStandard r.2
    else .error .badAddress := by
  rw [loadAddress, parser_bind]
  congr 1
  funext r
  obtain ⟨tag, p'⟩ := r
  match tag with
  | 0 => rfl
  | 1 => rfl
  | 2 => rfl
  | n + 3 => rw [if_neg (by simp), if_neg (by simp)]; rfl

theorem loadAddress_standard {a : TonAddress}
    (h : -128 ≤ a.workchain ∧ a.workchain < 128) :
    loadAddress ⟨standardBits a ++ rest, refs⟩ = .ok (a, ⟨rest, refs⟩) := by
  have htag (bits : List Bool) : loadUint 2 ⟨[true, false, false] ++ bits, refs⟩ =
      .ok (2, ⟨[false] ++ bits, refs⟩) :=
    loadUint_append (show 2 < 2 ^ 2 by decide)
  have hflag (bits : List Bool) : loadUint 1 ⟨[false] ++ bits, refs⟩ = .ok (0, ⟨bits, refs⟩) :=
    loadUint_append (show 0 < 2 ^ 1 by decide)
  rw [loadAddress_eq, standardBits, List.append_assoc, List.append_assoc, htag, ok_bind,
    if_neg (show ¬ 2 = 0 by decide), if_pos rfl, loadStandard, parser_bind, hflag, ok_bind,
    parser_bind, loadInt_append h, ok_bind, parser_bind, loadBytes32_append, ok_bind]
  rfl

theorem loadAddress_null :
    loadAddress ⟨[false, false] ++ rest, refs⟩ = .ok (TonAddress.null, ⟨rest, refs⟩) := by
  have htag : loadUint 2 ⟨[false, false] ++ rest, refs⟩ = .ok (0, ⟨rest, refs⟩) :=
    loadUint_append (show 0 < 2 ^ 2 by decide)
  rw [loadAddress_eq, htag, ok_bind, if_pos rfl]

theorem loadCoins_append {n x : ℕ} (hn : n < 16)
    (hx : x < 2 ^ (8 * n)) :
    loadCoins ⟨natToBits 4 n ++ (natToBits (8 * n) x ++ rest), refs⟩ = .ok (x, ⟨rest, refs⟩) := by
  rw [loadCoins, parser_bind, loadUint_append hn, ok_bind]
  exact loadUint_append hx

end Written

section Lengths

variable {p p' : CellParser}

theorem loadBits_eq_ok {n : ℕ} {bits : List Bool} (h : loadBits n p = .ok (bits, p')) :
    n ≤ p.bits.length ∧ bits = p.bits.take n ∧ p'.bits = p.bits.drop n := by
  rw [loadBits] at h
  split at h
  · rename_i hn
    cases h
    exact ⟨hn, rfl, rfl⟩
  · cases h

theorem parser_ok {α β : Type} {x : Parser α} {f : α → Parser β} {r : β × CellParser}
    (h : (x >>= f) p = .ok r) : ∃ a p', x p = .ok (a, p') ∧ f a p' = .ok r := by
  rw [parser_bind] at h
  obtain ⟨⟨a, p'⟩, hx, hf⟩ := bind_eq_ok.mp h
  exact ⟨a, p', hx, hf⟩

theorem loadUint_bits {n x : ℕ} (h : loadUint n p = .ok (x, p')) :
    n ≤ p.bits.length ∧ x = bitsToNat (p.bits.take n) ∧ p'.bits = p.bits.drop n := by
  obtain ⟨bits, p₁, hbits, h⟩ := parser_ok h
  cases h
  obtain ⟨hn, rfl, hp⟩ := loadBits_eq_ok hbits
  exact ⟨hn, rfl, hp⟩

theorem loadBytes32_bits {hash : Bytes32} (h : loadBytes32 p = .ok (hash, p')) :
    256 ≤ p.bits.length := by
  obtain ⟨bits, p₁, hbits, -⟩ := parser_ok h
  exact (loadBits_eq_ok hbits).1

/-- The amount takes as many bytes as its first four bits say. -/
theorem loadCoins_bits {x : ℕ} (h : loadCoins p = .ok (x, p')) :
    4 ≤ p.bits.length ∧ p'.bits = p.bits.drop (4 + 8 * bitsToNat (p.bits.take 4)) := by
  obtain ⟨n, p₁, hn, h⟩ := parser_ok h
  obtain ⟨hfour, rfl, hp₁⟩ := loadUint_bits hn
  obtain ⟨-, -, hp'⟩ := loadUint_bits h
  rw [hp', hp₁, List.drop_drop]
  exact ⟨hfour, rfl⟩

/-- An address is two bits or 267, as its first two bits say. -/
theorem loadAddress_bits {a : TonAddress} (h : loadAddress p = .ok (a, p')) :
    (bitsToNat (p.bits.take 2) = 0 ∧ p'.bits = p.bits.drop 2) ∨
    (bitsToNat (p.bits.take 2) = 2 ∧ p'.bits = p.bits.drop 267) := by
  rw [loadAddress_eq] at h
  obtain ⟨⟨tag, p₁⟩, htag, h⟩ := bind_eq_ok.mp h
  obtain ⟨-, rfl, hp₁⟩ := loadUint_bits htag
  dsimp only at h
  by_cases hzero : bitsToNat (p.bits.take 2) = 0
  · rw [if_pos hzero] at h
    cases h
    exact .inl ⟨hzero, hp₁⟩
  · by_cases htwo : bitsToNat (p.bits.take 2) = 2
    · rw [if_neg hzero, if_pos htwo] at h
      obtain ⟨flag, p₂, hflag, h⟩ := parser_ok h
      obtain ⟨workchain, p₃, hworkchain, h⟩ := parser_ok h
      obtain ⟨hash, p₄, hhash, h⟩ := parser_ok h
      obtain ⟨number, p₅, hnumber, hworkchain⟩ := parser_ok hworkchain
      obtain ⟨bits, p₆, hbits, hhash⟩ := parser_ok hhash
      have hp' : p₄ = p' := congrArg Prod.snd (Except.ok.inj h)
      have hp₃ : p₅ = p₃ := congrArg Prod.snd (Except.ok.inj hworkchain)
      have hp₄ : p₆ = p₄ := congrArg Prod.snd (Except.ok.inj hhash)
      rw [← hp', ← hp₄, (loadBits_eq_ok hbits).2.2, ← hp₃, (loadUint_bits hnumber).2.2,
        (loadUint_bits hflag).2.2, hp₁, List.drop_drop, List.drop_drop, List.drop_drop]
      exact .inr ⟨htwo, rfl⟩
    · rw [if_neg hzero, if_neg htwo] at h
      cases h

end Lengths

end CellReading
