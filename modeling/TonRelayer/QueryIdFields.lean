import TonRelayer.CellReading
import TonRelayer.EventAuthenticity
import TonRelayer.QueryIdExhaustion
import TonRelayer.RefundBroadcast

/-! The query id in the cells of an outgoing wallet message.
It is written twice, unsigned in 64 bits of the internal transfer and signed in 23 bits of the
body that the wallet contract checks. The contract reads both as unsigned numbers. -/
namespace QueryIdFields

open ExceptRules Cells CellReading ByteEncodings HighLoadQueryIds RelayerExecute RefundBroadcast
open QueryIdExhaustion EventAuthenticity

/-- The wrapper gives out this id in some run. -/
def Returned (q : HighLoadQueryId) : Prop :=
  ∃ calls, ∃ p ∈ wrapperCalls.steps calls, (wrapperNext p.1 p.2.1 p.2.2).1 = .ok q

theorem returned_issuable {q : HighLoadQueryId} (h : Returned q) : Issuable q := by
  obtain ⟨calls, p, hp, hq⟩ := h
  exact issued_issuable ((wrapperCalls_issued calls).2 p hp)
    (QueryIdSequences.result_ok (p := (p.1, p.2.2)) hq).1

/-- Two's complement in `n` bits, refused outside its range. -/
structure TwosComplement (storeInt : CellBuilder → ℕ → ℤ → Except CellError CellBuilder) :
    Prop where
  stored : ∀ b n v, 0 < n → -2 ^ (n - 1) ≤ v → v < 2 ^ (n - 1) →
    storeInt b n v = .ok { b with bits := b.bits ++ natToBits n (v % 2 ^ n).toNat }
  refused : ∀ b n v, 0 < n → ¬ (-2 ^ (n - 1) ≤ v ∧ v < 2 ^ (n - 1)) →
    ∃ e, storeInt b n v = .error e

/-- What a sending relies on: the timeout fits its field, the key is valid, the actions fit
an out list, and tonlib builds its two messages around bodies of the sizes at hand. -/
structure Usable (T : WalletTonlib) (wallet : Wallet) (actions : List OutAction) (value : ℕ) :
    Prop where
  storeInt : TwosComplement T.storeInt
  timeout : ∀ b : CellBuilder, ∃ bits, bits.length = 22 ∧
    T.storeNumber b 22 wallet.timeout.toNat = .ok { b with bits := b.bits ++ bits }
  key : ∀ cell, ∃ sign, T.signature wallet cell = .ok sign ∧ sign.length = 64
  outList : ∃ list, T.outList actions = .ok list
  transfer : ∀ body, body.bits.length = 96 → body.references.length = 1 →
    ∃ transfer, T.transferMessage (internalMessage value wallet.address) body = .ok transfer
  external : ∀ body, body.bits.length = 512 → body.references.length = 1 →
    ∃ message, T.externalMessage wallet.address body = .ok message

/-- The cells of an outgoing message, from the inside. -/
structure MessageCells where
  body : Cell
  transfer : Cell
  inner : Cell
  signed : Cell
  message : Cell

structure Built (T : WalletTonlib) (wallet : Wallet) (actions : List OutAction) (queryId : ℕ)
    (value : ℕ) (now : UInt64) (m : MessageCells) : Prop where
  body : internalTransferBody T.toTonlib actions (UInt64.ofNat queryId) = .ok m.body
  transfer : T.transferMessage (internalMessage value wallet.address) m.body = .ok m.transfer
  inner : messageInner T wallet m.transfer queryId now = .ok m.inner
  signed : signExternalBody T wallet m.inner = .ok m.signed
  message : T.externalMessage wallet.address m.signed = .ok m.message

/-- Both fields read as unsigned numbers; the contract splits the shorter one in two. -/
structure HoldsId (m : MessageCells) (q : HighLoadQueryId) : Prop where
  external : bitsToNat ((m.inner.bits.drop 40).take 23) = q.queryId
  shift : bitsToNat ((m.inner.bits.drop 40).take 13) = q.shift
  bitnumber : bitsToNat ((m.inner.bits.drop 53).take 10) = q.bitnumber
  internal : bitsToNat ((m.body.bits.drop 32).take 64) = q.queryId

/-- The message can be built, and its fields hold the id. -/
def Sendable (T : WalletTonlib) (wallet : Wallet) (actions : List OutAction) (value : ℕ)
    (now : UInt64) (q : HighLoadQueryId) : Prop :=
  ∃ m, outgoingMessage T wallet actions q.queryId value now = .ok m.message ∧
    Built T wallet actions q.queryId value now m ∧ HoldsId m q

/-- Thirteen bits of shift, then ten of bit number. -/
theorem split_id {bits : List Bool} {q : HighLoadQueryId} (hlength : bits.length = 23)
    (hbit : q.bitnumber ≤ maxBitnumber) (h : bitsToNat bits = q.queryId) :
    bitsToNat (bits.take 13) = q.shift ∧ bitsToNat (bits.drop 13) = q.bitnumber := by
  have hlow := bitsToNat_lt (bits.drop 13)
  have hsplit := bitsToNat_concat (bits.take 13) (bits.drop 13)
  rw [List.take_append_drop, h, queryId_eq, List.length_drop, hlength] at hsplit
  rw [List.length_drop, hlength] at hlow
  rw [maxBitnumber] at hbit
  omega

section Building

variable {T : WalletTonlib} {wallet : Wallet} {actions : List OutAction} {value queryId : ℕ}
variable {now : UInt64}

theorem outgoingMessage_built {m : MessageCells}
    (h : Built T wallet actions queryId value now m) :
    outgoingMessage T wallet actions queryId value now = .ok m.message := by
  obtain ⟨hbody, htransfer, hinner, hsigned, hmessage⟩ := h
  simp only [outgoingMessage, hbody, htransfer, hinner, hsigned, hmessage, ok_bind,
    Except.mapError]

/-- The head of the inner body: the subwallet and the mode, before the id. -/
def innerHead (wallet : Wallet) : List Bool :=
  natToBits 32 wallet.subwalletId.toNat ++ natToBits 8 sendModeIgnoreErrors.toNat

theorem innerHead_length (wallet : Wallet) : (innerHead wallet).length = 40 := by
  simp [innerHead]

theorem messageInner_eq (T : WalletTonlib) (wallet : Wallet) (transfer : Cell) (queryId : ℕ)
    (now : UInt64) : messageInner T wallet transfer queryId now =
      (T.storeInt ⟨innerHead wallet, [transfer]⟩ 23 queryId >>= fun b =>
        b.storeUint 64 (now - wallet.timeout / 60).toNat >>= fun b =>
          T.storeNumber b 22 wallet.timeout.toNat >>= CellBuilder.build) := by
  have hsubwallet : CellBuilder.storeUint {} 32 wallet.subwalletId.toNat =
      .ok ⟨natToBits 32 wallet.subwalletId.toNat, []⟩ := by
    rw [CellBuilder.storeUint_ok wallet.subwalletId.toNat_lt, List.nil_append]
  have hmode : CellBuilder.storeUint ⟨natToBits 32 wallet.subwalletId.toNat, [transfer]⟩ 8
      sendModeIgnoreErrors.toNat = .ok ⟨innerHead wallet, [transfer]⟩ :=
    CellBuilder.storeUint_ok (by decide)
  simp (disch := simp) only [messageInner, hsubwallet, ok_bind, CellBuilder.storeReference_ok,
    List.nil_append, hmode]

/-- Below `2^22` the two's complement of an id is the id itself. -/
theorem messageInner_ok (now : UInt64) (hT : Usable T wallet actions value) (transfer : Cell)
    (h : queryId < 2 ^ 22) : ∃ inner, messageInner T wallet transfer queryId now = .ok inner ∧
      ∃ rest, inner.bits = innerHead wallet ++ (natToBits 23 queryId ++ rest) := by
  have hstore : T.storeInt ⟨innerHead wallet, [transfer]⟩ 23 queryId =
      .ok ⟨innerHead wallet ++ natToBits 23 queryId, [transfer]⟩ := by
    have hvalue : ((queryId : ℤ) % 2 ^ 23).toNat = queryId := by omega
    rw [hT.storeInt.stored _ 23 _ (by decide) (by omega) (by omega), hvalue]
  have hcreated (b : CellBuilder) : b.storeUint 64 (now - wallet.timeout / 60).toNat =
      .ok { b with bits := b.bits ++ natToBits 64 (now - wallet.timeout / 60).toNat } :=
    CellBuilder.storeUint_ok (now - wallet.timeout / 60).toNat_lt
  obtain ⟨bits, hbits, htimeout⟩ := hT.timeout ⟨innerHead wallet ++ natToBits 23 queryId ++
    natToBits 64 (now - wallet.timeout / 60).toNat, [transfer]⟩
  have hhead := innerHead_length wallet
  obtain ⟨inner, hinner, hinnerBits, -⟩ := CellBuilder.build_ok
    (b := ⟨innerHead wallet ++ natToBits 23 queryId ++
      natToBits 64 (now - wallet.timeout / 60).toNat ++ bits, [transfer]⟩)
    (by simp [hhead, hbits]) (by simp)
  refine ⟨inner, ?_, natToBits 64 (now - wallet.timeout / 60).toNat ++ bits, ?_⟩
  · rw [messageInner_eq, hstore, ok_bind, hcreated, ok_bind, htimeout, ok_bind, hinner]
  · rw [hinnerBits, List.append_assoc, List.append_assoc]

theorem messageInner_refused (now : UInt64) (hT : Usable T wallet actions value) (transfer : Cell)
    (h : 2 ^ 22 ≤ queryId) : ∃ e, messageInner T wallet transfer queryId now = .error e := by
  obtain ⟨e, he⟩ := hT.storeInt.refused ⟨innerHead wallet, [transfer]⟩ 23 queryId (by decide)
    (by omega)
  exact ⟨e, by rw [messageInner_eq, he]; rfl⟩

theorem signExternalBody_ok (hT : Usable T wallet actions value) (inner : Cell) :
    ∃ signed, signExternalBody T wallet inner = .ok signed ∧ signed.bits.length = 512 ∧
      signed.references = [inner] := by
  obtain ⟨sign, hsign, hlength⟩ := hT.key inner
  obtain ⟨signed, hsigned, hbits, hrefs⟩ := CellBuilder.build_ok
    (b := ⟨bytesBits sign, [inner]⟩) (by simp [hlength]) (by simp)
  refine ⟨signed, ?_, by simp [hbits, hlength], hrefs⟩
  simp (disch := simp) only [signExternalBody, hsign, storeBytes_ok, ok_bind, List.nil_append,
    CellBuilder.storeReference_ok, hsigned]

theorem sendable_of_lt {q : HighLoadQueryId} (hbit : q.bitnumber ≤ maxBitnumber)
    (hactions : actions.length ≤ 254) (hT : Usable T wallet actions value)
    (h : q.queryId < 2 ^ 22) : Sendable T wallet actions value now q := by
  obtain ⟨list, hlist⟩ := hT.outList
  obtain ⟨body, hbody, hbits, hrefs⟩ :=
    internalTransferBody_bits hactions hlist (UInt64.ofNat q.queryId)
  obtain ⟨transfer, htransfer⟩ := hT.transfer body (by simp [hbits]) (by simp [hrefs])
  obtain ⟨inner, hinner, rest, hinnerBits⟩ := messageInner_ok now hT transfer h
  obtain ⟨signed, hsigned, hsignedBits, hsignedRefs⟩ := signExternalBody_ok hT inner
  obtain ⟨message, hmessage⟩ := hT.external signed hsignedBits (by simp [hsignedRefs])
  have hbuilt : Built T wallet actions q.queryId value now
      ⟨body, transfer, inner, signed, message⟩ :=
    ⟨hbody, htransfer, hinner, hsigned, hmessage⟩
  have hword : (UInt64.ofNat q.queryId).toNat = q.queryId := UInt64.toNat_ofNat_of_lt' (by
    rw [UInt64.size]
    omega)
  have hfield : inner.bits.drop 40 = natToBits 23 q.queryId ++ rest := by
    rw [hinnerBits, List.drop_left' (innerHead_length wallet)]
  have hvalue : bitsToNat (natToBits 23 q.queryId) = q.queryId :=
    bitsToNat_natToBits (by omega)
  obtain ⟨hshift, hbitnumber⟩ := split_id (natToBits_length 23 q.queryId) hbit hvalue
  refine ⟨_, outgoingMessage_built hbuilt, hbuilt, ?_, ?_, ?_, ?_⟩
  · dsimp only
    rw [hfield, List.take_left' (natToBits_length 23 q.queryId), hvalue]
  · dsimp only
    rw [hfield, List.take_append_of_le_length (by simp), hshift]
  · dsimp only
    have hdrop : inner.bits.drop 53 = (natToBits 23 q.queryId).drop 13 ++ rest := by
      rw [show 53 = 40 + 13 from rfl, ← List.drop_drop, hfield,
        List.drop_append_of_le_length (by simp)]
    rw [hdrop, List.take_left' (by simp), hbitnumber]
  · dsimp only
    rw [hbits, List.drop_left' (natToBits_length 32 opInternalTransfer), hword,
      List.take_of_length_le (by simp), bitsToNat_natToBits (by omega)]

theorem not_sendable_of_le {q : HighLoadQueryId} (hT : Usable T wallet actions value)
    (h : 2 ^ 22 ≤ q.queryId) : ¬ Sendable T wallet actions value now q := by
  rintro ⟨m, -, hbuilt, -⟩
  obtain ⟨e, he⟩ := messageInner_refused now hT m.transfer h
  cases he.symm.trans hbuilt.inner

end Building

/-- The sign bit of the signed field costs the upper half of the shifts. -/
theorem sendable_iff (T : WalletTonlib) (wallet : Wallet) (actions : List OutAction)
    (value : ℕ) (now : UInt64) (q : HighLoadQueryId) (hq : Returned q)
    (hactions : actions.length ≤ 254) (hT : Usable T wallet actions value) :
    Sendable T wallet actions value now q ↔ q.shift < 4096 := by
  obtain ⟨-, hbit, -⟩ := returned_issuable hq
  have hid := queryId_eq q
  have hlow : q.bitnumber ≤ 1022 := hbit
  constructor
  · intro hsend
    by_contra hshift
    exact not_sendable_of_le hT (by omega) hsend
  · intro hshift
    exact sendable_of_lt hbit hactions hT (by omega)

section Sample

def storeTwosComplement (b : CellBuilder) (n : ℕ) (v : ℤ) : Except CellError CellBuilder :=
  if -2 ^ (n - 1) ≤ v ∧ v < 2 ^ (n - 1) then
    .ok { b with bits := b.bits ++ natToBits n (v % 2 ^ n).toNat }
  else .error .numberTooLarge

theorem storeTwosComplement_spec : TwosComplement storeTwosComplement where
  stored := fun _ _ _ _ hlow hhigh => if_pos ⟨hlow, hhigh⟩
  refused := fun _ _ _ _ h => ⟨_, if_neg h⟩

def sampleSignature : List UInt8 :=
  [27, 100, 254, 3, 221, 124, 67, 1, 180, 145, 101, 43, 37, 40, 78, 83, 224, 208, 186, 12, 150,
    169, 95, 28, 161, 111, 116, 235, 226, 110, 73, 118, 122, 216, 109, 39, 80, 28, 246, 145, 129,
    185, 57, 220, 239, 174, 57, 157, 163, 151, 38, 209, 194, 78, 176, 251, 82, 56, 41, 161, 118,
    214, 196, 15]

/-- The header of an external message, before a body that is written in place. -/
def externalBits (address : TonAddress) : List Bool :=
  [true, false, false, false] ++ standardBits address ++ [false, false, false, false, false, false]

/-- The whole message, as a bag of cells. -/
def sampleTx : String :=
  "b5ee9c724101090100eb0001c588000000000000000000000000000000000000000000000000000000000000" ++
  "00000000db27f01eebe2180da48b29592942729f0685d064b54af8e50b7ba75f13724bb3d6c3693a80e7b48c" ++
  "0dc9cee77d71cced1cb9368e127587da91c14d0bb6b6207c01012500000141020000540000000000030d3000" ++
  "0fa402012120203e7000000000000000000000000003030118ae42e5a4000000000000002a04020a0ec3c86d" ++
  "0105060000016832007fffffffffffffffffffffffffffffffffffffffffffffffffffffffffffffffa3b9ac" ++
  "a00000000000000000000000000001070108000000280800022a14fa6d25"

def sampleBoc : String :=
  "te6cckEBCQEA6wABxYgAAAAAAAAAAAAAAAAAAAAAAAAAAAAAAAAAAAAAAAAAAAAA2yfwHuviGA2kiylZKUJynwaF" ++
  "0GS1SvjlC3unXxNyS7PWw2k6gOe0jA3Jzud9ccztHLk2jhJ1h9qRwU0LtrYgfAEBJQAAAUECAABUAAAAAAADDTAA" ++
  "D6QCASEgID5wAAAAAAAAAAAAAAAAAwMBGK5C5aQAAAAAAAAAKgQCCg7DyG0BBQYAAAFoMgB/////////////////" ++
  "/////////////////////////6O5rKAAAAAAAAAAAAAAAAAAAQcBCAAAACgIAAIqFPptJQ=="

def signingTonlib : WalletTonlib :=
  { sampleWalletTonlib with
    display := fun _ => "EQAAAAAAAAAAAAAAAAAAAAAAAAAAAAAAAAAAAAAAAAAAAM9c"
    serialize := fun _ => .ok ((hexDecode sampleTx).getD [])
    base64Encode := fun _ => sampleBoc
    storeInt := storeTwosComplement
    signature := fun _ _ => .ok sampleSignature
    externalMessage := fun address body =>
      CellBuilder.build ⟨externalBits address ++ body.bits, body.references⟩ }

def sampleWallet : Wallet := ⟨TonAddress.null, 321, 500⟩

def sampleTransfer : InternalMessage :=
  { internalMessage 2000000000 ⟨0, List.Vector.replicate 32 255⟩ with bounced := true }

def sampleAction : OutAction :=
  .sendMsg 1 (builtCell (transferBits sampleTransfer)
    [builtCell (natToBits 32 0x28) [builtCell (natToBits 8 0x2a) []]])

theorem signingTonlib_usable : Usable signingTonlib sampleWallet [sampleAction] 999 where
  storeInt := storeTwosComplement_spec
  timeout := by
    intro b
    exact ⟨natToBits 22 500, natToBits_length _ _,
      CellBuilder.storeUint_ok (show 500 < 2 ^ 22 by decide)⟩
  key := fun _ => ⟨sampleSignature, rfl, rfl⟩
  outList := by
    obtain ⟨list, hlist, -⟩ := CellBuilder.build_ok
      (b := ⟨outListBits 1, [emptyCell, builtCell _ _]⟩) (by simp [outListBits]) (by simp)
    exact ⟨list, hlist⟩
  transfer := by
    intro body hbits hrefs
    have hlength : (transferBits (internalMessage 999 TonAddress.null)).length ≤ 1023 := by
      decide +kernel
    obtain ⟨transfer, htransfer, -⟩ := CellBuilder.build_ok
      (b := ⟨transferBits (internalMessage 999 TonAddress.null), [body]⟩) hlength (by simp)
    refine ⟨transfer, ?_⟩
    simpa only [signingTonlib, sampleWalletTonlib, sampleEncoder, sampleWallet] using htransfer
  external := by
    intro body hbits hrefs
    obtain ⟨message, hmessage, -⟩ := CellBuilder.build_ok
      (b := ⟨externalBits TonAddress.null ++ body.bits, body.references⟩)
      (by simp [externalBits, standardBits_length, hbits]) (by simp [hrefs])
    exact ⟨message, hmessage⟩

theorem busyCalls_returned {k : ℕ} (hk : k + 1 ≤ 8191 * 1023 + 1020) :
    Returned ⟨(k + 1) / 1023, (k + 1) % 1023⟩ := by
  refine ⟨_, _, @busyCalls_last "wallet" (k + 1), ?_⟩
  show (wrapperNext _ "wallet" (busyCall "wallet" (k + 1)).2).1 = _
  rw [busyCall_issues hk (busyCalls_row (by omega))]

theorem sendable_forty_two :
    Sendable signingTonlib sampleWallet [sampleAction] 999 100000 ⟨0, 42⟩ :=
  (sendable_iff signingTonlib sampleWallet [sampleAction] 999 100000 ⟨0, 42⟩
    (busyCalls_returned (show 41 + 1 ≤ 8191 * 1023 + 1020 by decide)) (by simp)
    signingTonlib_usable).mpr (by decide)

/-- The first id of shift 4096 is given out, and no message can be built for it. -/
theorem upper_half_unsendable : Returned ⟨4096, 0⟩ ∧
    Usable signingTonlib sampleWallet [sampleAction] 999 ∧
      ¬ Sendable signingTonlib sampleWallet [sampleAction] 999 100000 ⟨4096, 0⟩ :=
  ⟨busyCalls_returned (show 4190207 + 1 ≤ 8191 * 1023 + 1020 by norm_num), signingTonlib_usable,
    not_sendable_of_le signingTonlib_usable (by rw [queryId_eq]; norm_num)⟩

end Sample

end QueryIdFields
