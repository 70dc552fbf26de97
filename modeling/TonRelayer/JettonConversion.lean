import Mathlib.Algebra.Order.Round
import Mathlib.Data.Rat.Floor
import TonRelayer.ParserPanics

/-! Jetton gas in native gas.
The amount becomes a decimal, is multiplied by the price of the coin and divided by the price of
TON. An amount that is too large for a decimal is an error; a product or a quotient that is, and
a price of zero, are panics, which take the whole trace with them. -/
namespace JettonConversion

open ExceptRules Cells ByteEncodings RelayerExecute MessageDecoders Types GasCalculator
open TransactionParsers TraceParsing TraceEvents ReadableTraces EventAuthenticity ParserPanics

variable {D : Type} {t : TraceParser D} {trace : Trace}

/-- What is assumed of `rust_decimal`. A decimal has a mantissa of 96 bits; a text with a larger
number is an error. A result that does not fit is a panic, as is a division by zero; a product
that fits is rounded to the digits there are. -/
structure RustDecimal (lib : Libraries D) where
  value : D → ℚ
  fits : ℚ → Prop
  rounded : ℚ → ℚ
  fits_small : ∀ x, |x| ≤ 2 ^ 96 - 1 → fits x
  fits_lt : ∀ x, fits x → |x| < 2 ^ 96
  fromStr_value : ∀ n : ℕ, n < 2 ^ 96 →
    ∃ d, lib.decimalFromStr (toString n) = .ok d ∧ value d = n
  fromStr_error : ∀ n : ℕ, 2 ^ 96 ≤ n → ∃ text, lib.decimalFromStr (toString n) = .error text
  mul_none : ∀ a b, lib.decimalMul a b = none ↔ ¬ fits (value a * value b)
  mul_value : ∀ a b c, lib.decimalMul a b = some c → value c = rounded (value a * value b)
  div_none : ∀ a b, lib.decimalDiv a b = none ↔ value b = 0 ∨ ¬ fits (value a / value b)

/-- The loop of `add_gas_used_and_convert`. -/
def addGasUsedAndConvert (t : TraceParser D)
    (events : List Event) (totalGasUsed refundGasUsed messageApprovedCount : ℕ) :
    Outcome (List Event) :=
  events.mapM (convertEvent t totalGasUsed refundGasUsed messageApprovedCount)

section Amounts

theorem digit_value {c : Char} (h : c.isDigit = true) :
    digit? c = some (c.toNat - '0'.toNat) := by
  apply if_pos
  simpa [Char.isDigit, Char.le_def, UInt32.le_iff_toNat_le] using h

theorem foldlM_digits {cs : List Char} (h : ∀ c ∈ cs, c.isDigit = true) (init : ℕ) :
    cs.foldlM (fun n c => (digit? c).map fun d => n * 10 + d) init =
      some (Nat.ofDigitChars 10 cs init) := by
  induction cs generalizing init with
  | nil => rfl
  | cons c cs ih =>
    rw [List.forall_mem_cons] at h
    rw [List.foldlM_cons, digit_value h.1, Nat.ofDigitChars_cons, mul_comm 10 init]
    exact ih h.2 _

/-- The amount of an event is read back as the number that was written. -/
theorem parseBigUint_toString (n : ℕ) : parseBigUint (toString n) = some n := by
  have hlist : (toString n).toList = Nat.toDigits 10 n := Nat.toList_repr
  have hdigit : ∀ c ∈ Nat.toDigits 10 n, c.isDigit = true :=
    fun c hc => Nat.isDigit_of_mem_toDigits (by decide) (by decide) hc
  have hne : Nat.toDigits 10 n ≠ [] := Nat.toDigits_ne_nil
  have hvalue := foldlM_digits hdigit 0
  rw [Nat.ofDigitChars_ten_toDigits] at hvalue
  rw [parseBigUint, hlist]
  generalize Nat.toDigits 10 n = cs at hdigit hne hvalue
  have hhead : cs.head? ≠ some '_' := by
    intro h
    cases hdigit _ (List.mem_of_mem_head? h)
  have hfilter : cs.filter (· ≠ '_') = cs := by
    apply List.filter_eq_self.mpr
    intro c hc
    rw [decide_eq_true_eq]
    rintro rfl
    cases hdigit _ hc
  split
  · cases hdigit _ List.mem_cons_self
  · cases hdigit _ List.mem_cons_self
  · rw [if_neg hhead, if_neg hne, hfilter]
    exact hvalue

end Amounts

section Conversion

variable {minter : String} {amount : ℕ}

/-- A price is missing, the amount is too large for a decimal, or all that is computed fits. -/
def ConversionSafe (R : RustDecimal t.lib) (minter : String) (amount : ℕ) : Prop :=
  ∀ coin ton, t.getPrice (minter ++ "/USD") = .ok coin → t.getPrice "TON/USD" = .ok ton →
    amount < 2 ^ 96 → R.fits (amount * R.value coin) ∧ R.value ton ≠ 0 ∧
      R.fits (R.rounded (amount * R.value coin) / R.value ton)

theorem quotient_isSome_iff {lib : Libraries D} (R : RustDecimal lib) (d coin ton : D) :
    ((lib.decimalMul d coin).bind fun usd => lib.decimalDiv usd ton).isSome = true ↔
      R.fits (R.value d * R.value coin) ∧ R.value ton ≠ 0 ∧
        R.fits (R.rounded (R.value d * R.value coin) / R.value ton) := by
  cases hmul : lib.decimalMul d coin with
  | none =>
    have hfits := (R.mul_none d coin).mp hmul
    simp [hfits]
  | some usd =>
    have hfits : R.fits (R.value d * R.value coin) := by
      by_contra h
      rw [(R.mul_none d coin).mpr h] at hmul
      cases hmul
    rw [Option.bind_some, Option.isSome_iff_ne_none, ne_eq, R.div_none, R.mul_value d coin usd hmul,
      not_or, not_not]
    exact ⟨fun h => ⟨hfits, h⟩, fun h => h.2⟩

theorem conversionFits_iff (R : RustDecimal t.lib) :
    ConversionFits t minter amount ↔ ConversionSafe R minter amount := by
  constructor
  · intro h coin ton hcoin hton hamount
    obtain ⟨d, hd, hvalue⟩ := R.fromStr_value amount hamount
    rw [← hvalue, ← quotient_isSome_iff R]
    exact h coin ton d hcoin hton hd
  · intro h coin ton d hcoin hton hd
    have hamount : amount < 2 ^ 96 := by
      by_contra hlarge
      obtain ⟨text, htext⟩ := R.fromStr_error amount (not_lt.mp hlarge)
      cases htext.symm.trans hd
    obtain ⟨d', hd', hvalue⟩ := R.fromStr_value amount hamount
    cases hd'.symm.trans hd
    rw [quotient_isSome_iff R, hvalue]
    exact h coin ton hcoin hton hamount

/-- A decimal operation that is not defined panics. -/
theorem convert_panics {coin ton d : D} (hcoin : t.getPrice (minter ++ "/USD") = .ok coin)
    (hton : t.getPrice "TON/USD" = .ok ton) (hd : t.lib.decimalFromStr (toString amount) = .ok d)
    (h : ((t.lib.decimalMul d coin).bind fun usd => t.lib.decimalDiv usd ton) = none) :
    convertJettonToNative t minter amount = .error .panic := by
  rw [convertJettonToNative, hcoin]
  dsimp only
  rw [hton]
  dsimp only
  rw [hd]
  dsimp only
  rw [h]

theorem fits_of_noPanic (h : NoPanic (convertJettonToNative t minter amount)) :
    ConversionFits t minter amount := by
  intro coin ton d hcoin hton hd
  by_contra hnone
  rw [Option.not_isSome_iff_eq_none] at hnone
  exact h (convert_panics hcoin hton hd hnone)

/-- No rounding makes room for a product of 2^96 or more. -/
theorem large_product_panics (R : RustDecimal t.lib) {coin ton : D}
    (hcoin : t.getPrice (minter ++ "/USD") = .ok coin) (hton : t.getPrice "TON/USD" = .ok ton)
    (hamount : amount < 2 ^ 96) (h : 2 ^ 96 ≤ |amount * R.value coin|) :
    convertJettonToNative t minter amount = .error .panic := by
  by_contra hpanic
  have hsafe := (conversionFits_iff R).mp (fits_of_noPanic hpanic)
  obtain ⟨hfits, -⟩ := hsafe coin ton hcoin hton hamount
  exact absurd (R.fits_lt _ hfits) (not_lt.mpr h)

theorem zero_price_panics (R : RustDecimal t.lib) {coin ton : D}
    (hcoin : t.getPrice (minter ++ "/USD") = .ok coin) (hton : t.getPrice "TON/USD" = .ok ton)
    (hamount : amount < 2 ^ 96) (h : R.value ton = 0) :
    convertJettonToNative t minter amount = .error .panic := by
  by_contra hpanic
  have hsafe := (conversionFits_iff R).mp (fits_of_noPanic hpanic)
  obtain ⟨-, hton0, -⟩ := hsafe coin ton hcoin hton hamount
  exact hton0 h

theorem convertsCleanly_iff (R : RustDecimal t.lib) :
    ConvertsCleanly t minter amount ↔ ConversionSafe R minter amount := by
  rw [← conversionFits_iff R]
  constructor
  · intro h
    exact fits_of_noPanic (convertJettonToNative_noPanic h)
  · exact converts_of_fits

end Conversion

section Events

/-- The jetton amount of a credit, if the event is one, can be converted. -/
def JettonSafe (R : RustDecimal t.lib) (e : Event) : Prop :=
  ∀ common id refundAddress minter text amount,
    e = .gasCredit common id refundAddress ⟨some minter, text⟩ →
    parseBigUint text = some amount → ConversionSafe R minter amount

theorem convertEvent_safe {R : RustDecimal t.lib} {e : Event} {total refund approved : ℕ}
    (h : JettonSafe R e) : NoPanic (convertEvent t total refund approved e) := by
  apply convertEvent_noPanic
  intro common id refundAddress minter text amount he hamount
  exact (conversionFits_iff R).mpr (h common id refundAddress minter text amount he hamount)

theorem convert_credit_iff (R : RustDecimal t.lib) {common : CommonEventFields EventMetadata}
    {id refundAddress minter : String} {amount total refund approved : ℕ} :
    Returns (addGasUsedAndConvert t
      [.gasCredit common id refundAddress ⟨some minter, toString amount⟩] total refund approved) ↔
      ConversionSafe R minter amount := by
  rw [returns_iff_noPanic, ← conversionFits_iff R]
  constructor
  · intro h
    apply fits_of_noPanic
    intro hpanic
    apply h
    rw [addGasUsedAndConvert, List.mapM_cons, convertEvent]
    dsimp only
    rw [parseBigUint_toString]
    dsimp only
    rw [hpanic]
    rfl
  · intro h
    apply avoids_mapM
    intro e he
    rw [List.mem_singleton.mp he]
    apply convertEvent_noPanic
    intro _ _ _ minter' text amount' he hamount
    cases he
    rw [parseBigUint_toString] at hamount
    cases hamount
    exact h

theorem addGasUsedAndConvert_safe {R : RustDecimal t.lib} {events : List Event}
    {total refund approved : ℕ} (h : ∀ e ∈ events, JettonSafe R e) :
    NoPanic (addGasUsedAndConvert t events total refund approved) := by
  apply avoids_mapM
  intro e he
  exact convertEvent_safe (h e he)

/-- `parse_trace` ends with that loop, over the events that were linked. -/
theorem parseTrace_convert {c : Containers} {out : List (AnyParser × Event)} {total refund : ℕ}
    (hgas : gasUsed t trace = .ok (total, refund)) (hc : createParsers t trace = .ok c)
    (hout : linkEvents t c = .ok out) :
    parseTrace t trace =
      addGasUsedAndConvert t (out.map Prod.snd) total refund c.messageApprovedCount := by
  rw [parseTrace, parseTraceTagged, hgas, ok_bind]
  dsimp only
  rw [hc, ok_bind, hout, ok_bind]
  exact mapM_tagged (convertEvent t total refund c.messageApprovedCount) out

theorem parseTrace_safe {R : RustDecimal t.lib} {c : Containers} {out : List (AnyParser × Event)}
    (hc : createParsers t trace = .ok c) (hout : linkEvents t c = .ok out)
    (h : ∀ pe ∈ out, JettonSafe R pe.2) : NoPanic (parseTrace t trace) := by
  obtain ⟨⟨total, refund⟩, hgas⟩ := gasUsed_defined t trace
  rw [parseTrace_convert hgas hc hout]
  apply addGasUsedAndConvert_safe (R := R)
  intro e he
  obtain ⟨pe, hpe, rfl⟩ := List.mem_map.mp he
  exact h pe hpe

/-- A jetton amount is converted, or refused with an error, exactly when the decimals on the way
fit; so is the credit that carries it, and a trace whose credits all fit does not panic here. -/
theorem conversions_return_iff (R : RustDecimal t.lib) :
    (∀ minter amount, ConvertsCleanly t minter amount ↔ ConversionSafe R minter amount) ∧
    (∀ common id refundAddress minter (amount total refund approved : ℕ),
      Returns (addGasUsedAndConvert t
        [.gasCredit common id refundAddress ⟨some minter, toString amount⟩]
        total refund approved) ↔ ConversionSafe R minter amount) ∧
    (∀ events total refund approved, (∀ e ∈ events, JettonSafe R e) →
      Returns (addGasUsedAndConvert t events total refund approved)) ∧
    ∀ trace c out, createParsers t trace = .ok c → linkEvents t c = .ok out →
      (∀ pe ∈ out, JettonSafe R pe.2) → Returns (parseTrace t trace) := by
  refine ⟨?_, ?_, ?_, ?_⟩
  · intro minter amount
    exact convertsCleanly_iff R
  · intro common id refundAddress minter amount total refund approved
    exact convert_credit_iff R
  · intro events total refund approved h
    exact returns_iff_noPanic.mpr (addGasUsedAndConvert_safe h)
  · intro trace c out hc hout h
    exact returns_iff_noPanic.mpr (parseTrace_safe hc hout h)

end Events

section Samples

/-- Decimals without a limit on their digits after the point. -/
def priceLibraries : Libraries ℚ where
  fromBocB64 := sampleLibraries.fromBocB64
  base64Decode := sampleLibraries.base64Decode
  base64Encode := sampleLibraries.base64Encode
  keccak256 := sampleLibraries.keccak256
  now := sampleLibraries.now
  decimalFromStr := fun text => match parseBigUint text with
    | some n =>
      if n < 2 ^ 96 then .ok n else .error "Invalid decimal: overflow from too many digits"
    | none => .error "Invalid decimal: unknown character"
  decimalMul := fun a b => if |a * b| ≤ 2 ^ 96 - 1 then some (a * b) else none
  decimalDiv := fun a b => if b = 0 ∨ ¬ |a / b| ≤ 2 ^ 96 - 1 then none else some (a / b)
  decimalRound := fun x => (round x : ℤ)
  decimalToString := fun x => toString x.num

theorem price_fromStr (n : ℕ) : priceLibraries.decimalFromStr (toString n) =
    if n < 2 ^ 96 then .ok (n : ℚ)
    else .error "Invalid decimal: overflow from too many digits" := by
  dsimp only [priceLibraries]
  rw [parseBigUint_toString]

def priceDecimals : RustDecimal priceLibraries where
  value := id
  fits := fun x => |x| ≤ 2 ^ 96 - 1
  rounded := id
  fits_small := fun _ h => h
  fits_lt := fun x h => lt_of_le_of_lt h (by norm_num)
  fromStr_value := fun n h => ⟨n, by rw [price_fromStr, if_pos h], rfl⟩
  fromStr_error := fun n h => ⟨_, by rw [price_fromStr, if_neg (not_lt.mpr h)]⟩
  mul_none := fun a b => by simp [priceLibraries]
  mul_value := fun a b c h => by
    dsimp only [priceLibraries] at h
    split at h
    · cases h
      rfl
    · cases h
  div_none := fun a b => by
    dsimp only [priceLibraries, id]
    rw [ite_eq_left_iff]
    simp only [reduceCtorEq, imp_false, not_not]

def priceParser (coin ton : ℚ) : TraceParser ℚ where
  lib := priceLibraries
  getPrice := fun pair => if pair = "TON/USD" then .ok ton else .ok coin
  gatewayAddress := sampleParser.gatewayAddress
  gasServiceAddress := sampleParser.gasServiceAddress
  itsAddress := sampleParser.itsAddress
  ourAddresses := sampleParser.ourAddresses
  chainName := sampleParser.chainName

theorem conversions_return_thousand :
    ConvertsCleanly (priceParser (1 / 2) 3) "minter" 1000 ∧
      Returns (addGasUsedAndConvert (priceParser (1 / 2) 3)
        [.gasCredit ⟨"GAS_CREDIT", "tx-gas", none⟩ "0x2a" "0x08" ⟨some "minter", toString 1000⟩]
        0 0 0) := by
  have hsafe : ConversionSafe (t := priceParser (1 / 2) 3) priceDecimals "minter" 1000 := by
    intro coin ton hcoin hton _
    cases hcoin
    cases hton
    refine ⟨priceDecimals.fits_small _ ?_, ?_, priceDecimals.fits_small _ ?_⟩
    · norm_num [priceDecimals, abs_of_pos]
    · norm_num [priceDecimals]
    · norm_num [priceDecimals, abs_of_pos]
  obtain ⟨hclean, -, hevents, -⟩ :=
    conversions_return_iff (t := priceParser (1 / 2) 3) priceDecimals
  refine ⟨(hclean "minter" 1000).mpr hsafe, hevents _ 0 0 0 ?_⟩
  intro e he common id refundAddress minter text amount hcredit hamount
  rw [List.mem_singleton.mp he] at hcredit
  cases hcredit
  rw [parseBigUint_toString] at hamount
  cases hamount
  exact hsafe

/-- An amount that a log can carry, at a price for which the product has no room; and any
amount, when TON costs nothing. -/
theorem conversion_panics :
    convertJettonToNative (priceParser 1000 3) "minter" (2 ^ 95) = .error .panic ∧
      convertJettonToNative (priceParser (1 / 2) 0) "minter" 1 = .error .panic := by
  have hcoin (coin ton : ℚ) : (priceParser coin ton).getPrice ("minter" ++ "/USD") = .ok coin := rfl
  have hton (coin ton : ℚ) : (priceParser coin ton).getPrice "TON/USD" = .ok ton := rfl
  constructor
  · apply large_product_panics priceDecimals (hcoin 1000 3) (hton 1000 3) (by norm_num)
    norm_num [priceDecimals, abs_of_pos]
  · exact zero_price_panics priceDecimals (hcoin (1 / 2) 0) (hton (1 / 2) 0) (by norm_num) rfl

end Samples

end JettonConversion
