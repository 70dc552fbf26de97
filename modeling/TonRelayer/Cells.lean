import Mathlib.Data.Vector.Basic
import Mathlib.Data.List.Induction
import Mathlib.Data.List.OfFn
import Mathlib.Tactic.Ring

/-! Cells of the TON virtual machine: up to 1023 bits and up to four references.
Builders append, parsers consume from the front; numbers are big endian. How cells become
bags of cells, and the depth limit of a chain, are left to whoever uses them. -/
namespace Cells

abbrev Bytes32 := List.Vector UInt8 32

structure TonAddress where
  workchain : ℤ
  hashPart : Bytes32
  deriving DecidableEq

def TonAddress.null : TonAddress := ⟨0, List.Vector.replicate 32 0⟩

inductive Cell where
  | mk (bits : { b : List Bool // b.length ≤ 1023 }) (count : Fin 5) (refs : Fin count → Cell)

def Cell.bits : Cell → List Bool
  | .mk bits _ _ => bits.1

def Cell.references : Cell → List Cell
  | .mk _ _ refs => List.ofFn refs

inductive CellError where
  | notEnoughBits
  | notEnoughReferences
  | numberTooLarge
  | tooManyBits
  | tooManyReferences
  | badAddress
  | badBoc
  deriving DecidableEq, Repr

section Numbers

def natToBits : ℕ → ℕ → List Bool
  | 0, _ => []
  | n + 1, x => natToBits n (x / 2) ++ [decide (x % 2 = 1)]

def bitsToNat (bits : List Bool) : ℕ := bits.foldl (fun x b => 2 * x + b.toNat) 0

@[simp] theorem natToBits_length (n x : ℕ) : (natToBits n x).length = n := by
  induction n generalizing x with
  | zero => rfl
  | succ n ih => simp [natToBits, ih]

theorem bitsToNat_append (bits : List Bool) (b : Bool) :
    bitsToNat (bits ++ [b]) = 2 * bitsToNat bits + b.toNat := by
  simp [bitsToNat]

theorem bitsToNat_natToBits {n x : ℕ} (h : x < 2 ^ n) : bitsToNat (natToBits n x) = x := by
  induction n generalizing x with
  | zero =>
    obtain rfl : x = 0 := by omega
    rfl
  | succ n ih =>
    rw [natToBits, bitsToNat_append, ih (by rw [pow_succ] at h; omega)]
    rcases Nat.mod_two_eq_zero_or_one x with hx | hx <;> simp [hx] <;> omega

theorem bitsToNat_lt (bits : List Bool) : bitsToNat bits < 2 ^ bits.length := by
  induction bits using List.reverseRecOn with
  | nil => simp [bitsToNat]
  | append_singleton bits b ih =>
    have hb : b.toNat ≤ 1 := Bool.toNat_le b
    rw [bitsToNat_append, List.length_append, List.length_singleton, pow_succ]
    omega

theorem natToBits_bitsToNat (bits : List Bool) : natToBits bits.length (bitsToNat bits) = bits := by
  induction bits using List.reverseRecOn with
  | nil => rfl
  | append_singleton bits b ih =>
    have hhalf : (2 * bitsToNat bits + b.toNat) / 2 = bitsToNat bits := by
      have hb : b.toNat ≤ 1 := Bool.toNat_le b
      omega
    have hlast : decide ((2 * bitsToNat bits + b.toNat) % 2 = 1) = b := by
      cases b <;> simp
    rw [List.length_append, List.length_singleton, natToBits, bitsToNat_append, hhalf, hlast, ih]

def byteBits (b : UInt8) : List Bool := natToBits 8 b.toNat

@[simp] theorem byteBits_length (b : UInt8) : (byteBits b).length = 8 := natToBits_length _ _

theorem ofNat_byteBits (b : UInt8) : UInt8.ofNat (bitsToNat (byteBits b)) = b := by
  rw [byteBits, bitsToNat_natToBits b.toNat_lt]
  simp

theorem byteBits_ofNat {bits : List Bool} (h : bits.length = 8) :
    byteBits (UInt8.ofNat (bitsToNat bits)) = bits := by
  have hlt : bitsToNat bits < 256 := by
    have hbits := bitsToNat_lt bits
    rwa [h] at hbits
  have hback := natToBits_bitsToNat bits
  rw [byteBits, UInt8.toNat_ofNat', Nat.mod_eq_of_lt hlt]
  rwa [h] at hback

def bytesBits (bytes : List UInt8) : List Bool := bytes.flatMap byteBits

@[simp] theorem bytesBits_length (bytes : List UInt8) :
    (bytesBits bytes).length = 8 * bytes.length := by
  induction bytes with
  | nil => rfl
  | cons b bytes ih =>
    rw [bytesBits, List.flatMap_cons, List.length_append, byteBits_length, ← bytesBits, ih,
      List.length_cons]
    ring

/-- The bits cut into bytes, the last one filled up with zeros. -/
def bitsData : List Bool → ℕ → List UInt8
  | _, 0 => []
  | bits, n + 1 =>
    UInt8.ofNat (bitsToNat (bits.take 8 ++ List.replicate (8 - bits.length) false)) ::
      bitsData (bits.drop 8) n

theorem bytesBits_bitsData {n : ℕ} {bits : List Bool} (h : bits.length = 8 * n) :
    bytesBits (bitsData bits n) = bits := by
  induction n generalizing bits with
  | zero =>
    obtain rfl : bits = [] := List.length_eq_zero_iff.mp (by omega)
    rfl
  | succ n ih =>
    have hpad : bits.take 8 ++ List.replicate (8 - bits.length) false = bits.take 8 := by
      rw [show 8 - bits.length = 0 by omega, List.replicate_zero, List.append_nil]
    have hbyte : byteBits (UInt8.ofNat (bitsToNat (bits.take 8))) = bits.take 8 :=
      byteBits_ofNat (by rw [List.length_take]; omega)
    have hrest : bytesBits (bitsData (bits.drop 8) n) = bits.drop 8 :=
      ih (by rw [List.length_drop]; omega)
    rw [bitsData, hpad, bytesBits, List.flatMap_cons, hbyte, ← bytesBits, hrest,
      List.take_append_drop]

theorem bitsData_length (bits : List Bool) (n : ℕ) : (bitsData bits n).length = n := by
  induction n generalizing bits with
  | zero => rfl
  | succ n ih => rw [bitsData, List.length_cons, ih]

end Numbers

/-- The data of a cell as whole bytes. -/
def Cell.data (c : Cell) : List UInt8 := bitsData c.bits ((c.bits.length + 7) / 8)

structure CellBuilder where
  bits : List Bool := []
  references : List Cell := []

namespace CellBuilder

def storeUint (b : CellBuilder) (n x : ℕ) : Except CellError CellBuilder :=
  if x < 2 ^ n then .ok { b with bits := b.bits ++ natToBits n x } else .error .numberTooLarge

def storeReference (b : CellBuilder) (c : Cell) : Except CellError CellBuilder :=
  if b.references.length < 4 then .ok { b with references := b.references ++ [c] }
  else .error .tooManyReferences

/-- The null address is two zero bits; any other is written in the standard form. -/
def storeAddress (b : CellBuilder) (a : TonAddress) : CellBuilder :=
  if a = TonAddress.null then { b with bits := b.bits ++ [false, false] }
  else { b with
    bits := b.bits ++ [true, false, false] ++ natToBits 8 (a.workchain % 256).toNat ++
      bytesBits a.hashPart.toList }

def build (b : CellBuilder) : Except CellError Cell :=
  if hb : b.bits.length ≤ 1023 then
    if hr : b.references.length ≤ 4 then
      .ok (.mk ⟨b.bits, hb⟩ ⟨b.references.length, by omega⟩ b.references.get)
    else .error .tooManyReferences
  else .error .tooManyBits

theorem storeUint_ok {b : CellBuilder} {n x : ℕ} (h : x < 2 ^ n) :
    b.storeUint n x = .ok { b with bits := b.bits ++ natToBits n x } := if_pos h

theorem storeReference_ok {b : CellBuilder} (c : Cell) (h : b.references.length < 4) :
    b.storeReference c = .ok { b with references := b.references ++ [c] } := if_pos h

theorem storeAddress_bits (b : CellBuilder) (a : TonAddress) :
    (b.storeAddress a).bits.length ≤ b.bits.length + 267 := by
  rw [storeAddress]
  split <;> simp

@[simp] theorem storeAddress_references (b : CellBuilder) (a : TonAddress) :
    (b.storeAddress a).references = b.references := by
  rw [storeAddress]
  split <;> rfl

theorem build_ok {b : CellBuilder} (hb : b.bits.length ≤ 1023) (hr : b.references.length ≤ 4) :
    ∃ c, b.build = .ok c ∧ c.bits = b.bits ∧ c.references = b.references := by
  refine ⟨.mk ⟨b.bits, hb⟩ ⟨b.references.length, by omega⟩ b.references.get, ?_, rfl, ?_⟩
  · simp [build, hb, hr]
  · exact List.ofFn_get _

end CellBuilder

structure CellParser where
  bits : List Bool
  references : List Cell

def Cell.parser (c : Cell) : CellParser := ⟨c.bits, c.references⟩

abbrev Parser := StateT CellParser (Except CellError)

def loadBits (n : ℕ) : Parser (List Bool) := fun p =>
  if n ≤ p.bits.length then .ok (p.bits.take n, { p with bits := p.bits.drop n })
  else .error .notEnoughBits

def loadUint (n : ℕ) : Parser ℕ := do return bitsToNat (← loadBits n)

theorem loadBits_ok {p : CellParser} {n : ℕ} (h : n ≤ p.bits.length) :
    loadBits n p = .ok (p.bits.take n, { p with bits := p.bits.drop n }) := if_pos h

theorem loadUint_ok {p : CellParser} {n : ℕ} (h : n ≤ p.bits.length) :
    loadUint n p = .ok (bitsToNat (p.bits.take n), { p with bits := p.bits.drop n }) := by
  have hrun : loadUint n p = loadBits n p >>= fun r => .ok (bitsToNat r.1, r.2) := rfl
  rw [hrun, loadBits_ok h]
  rfl

/-- Two's complement. -/
def loadInt (n : ℕ) : Parser ℤ := do return Int.bmod (← loadUint n) (2 ^ n)

def loadBytes (n : ℕ) : Parser (List UInt8) := do return bitsData (← loadBits (8 * n)) n

def loadBytes32 : Parser Bytes32 := do
  let bits ← loadBits 256
  return ⟨List.ofFn fun i : Fin 32 => UInt8.ofNat (bitsToNat ((bits.drop (8 * i)).take 8)),
    List.length_ofFn⟩

/-- Tag `00` is the null address, tag `10` a standard one; other forms are refused. -/
def loadAddress : Parser TonAddress := do
  match ← loadUint 2 with
  | 0 => return TonAddress.null
  | 2 =>
    let _ ← loadUint 1
    let workchain ← loadInt 8
    let hashPart ← loadBytes32
    return ⟨workchain, hashPart⟩
  | _ => throw .badAddress

/-- A byte count in four bits, then the amount. -/
def loadCoins : Parser ℕ := do
  let n ← loadUint 4
  loadUint (8 * n)

def nextReference : Parser Cell := fun p =>
  match p.references with
  | [] => .error .notEnoughReferences
  | c :: rest => .ok (c, { p with references := rest })

/-- Run a parser on another cell; the position in this one is kept. -/
def parseCell {α : Type} (c : Cell) (parse : Parser α) : Parser α := fun p =>
  (parse c.parser).map fun r => (r.1, p)

end Cells
