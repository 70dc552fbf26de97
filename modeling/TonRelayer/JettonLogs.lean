import Mathlib
import TonRelayer.CellReading
import TonRelayer.EventAuthenticity

/-! The two logs of jetton gas.
Both come in a transfer notification to the gas service, in the first out message, and neither
has an op code of its own; the one that adds gas is tried first. -/
namespace JettonLogs

open ExceptRules Cells CellReading ByteEncodings RelayerExecute MessageDecoders Types
open GasCalculator TransactionParsers TraceParsing TraceEvents EventAuthenticity

section Bodies

variable {c : Cell} {refs : List Cell} {rest : List Bool}

/-- The bits of an address: none at all, or the standard form. -/
def AddressBits (a : TonAddress) (bits : List Bool) : Prop :=
  (a = TonAddress.null ∧ bits = [false, false]) ∨
    (-128 ≤ a.workchain ∧ a.workchain < 128 ∧ bits = standardBits a)

/-- A byte count of any width that holds the amount, then the amount. -/
def CoinBits (amount : ℕ) (bits : List Bool) : Prop :=
  ∃ n, n < 16 ∧ amount < 2 ^ (8 * n) ∧ bits = natToBits 4 n ++ natToBits (8 * n) amount

def HoldsAddress (c : Cell) (a : TonAddress) : Prop :=
  ∃ bits rest, c.bits = bits ++ rest ∧ AddressBits a bits

/-- A well-formed log of paid jetton gas. -/
structure PaidLog (c : Cell) (m : JettonGasPaidMessage) : Prop where
  workchain : -128 ≤ m.minter.workchain ∧ m.minter.workchain < 128
  bits : ∃ coins, CoinBits m.amount coins ∧
    c.bits = standardBits m.minter ++ (coins ++ bytesBits m.payloadHash.toList)
  references : ∃ refund chain address, c.references = [refund, chain, address] ∧
    HoldsAddress refund m.refundAddress ∧ cellToString chain = .ok m.destinationChain ∧
    cellToString address = .ok m.destinationAddress

/-- A well-formed log of added jetton gas. -/
structure AddedLog (c : Cell) (m : JettonGasAddedMessage) : Prop where
  bits : ∃ minter sender coins, AddressBits m.minter minter ∧ AddressBits m.sender sender ∧
    CoinBits m.amount coins ∧
    c.bits = minter ++ (sender ++ (coins ++ bytesBits m.txHash.toList))
  references : ∃ refund, c.references = [refund] ∧ HoldsAddress refund m.refundAddress

theorem load_address {a : TonAddress} {bits : List Bool} (h : AddressBits a bits) :
    load loadAddress ⟨bits ++ rest, refs⟩ = .ok (a, ⟨rest, refs⟩) := by
  rcases h with ⟨rfl, rfl⟩ | ⟨hlow, hhigh, rfl⟩
  · exact parsing_ok loadAddress_null
  · exact parsing_ok (loadAddress_standard ⟨hlow, hhigh⟩)

theorem load_coins {amount : ℕ} {bits : List Bool} (h : CoinBits amount bits) :
    load loadCoins ⟨bits ++ rest, refs⟩ = .ok (amount, ⟨rest, refs⟩) := by
  obtain ⟨n, hn, hamount, rfl⟩ := h
  rw [List.append_assoc]
  exact parsing_ok (loadCoins_append hn hamount)

theorem load_hash (hash : Bytes32) :
    load loadBytes32 ⟨bytesBits hash.toList, refs⟩ = .ok (hash, ⟨[], refs⟩) := by
  have h : loadBytes32 ⟨bytesBits hash.toList ++ [], refs⟩ = .ok (hash, ⟨[], refs⟩) :=
    loadBytes32_append hash
  rw [List.append_nil] at h
  exact parsing_ok h

theorem load_held {a : TonAddress} (h : HoldsAddress c a) (p : CellParser) :
    load (parseCell c loadAddress) p = .ok (a, p) := by
  obtain ⟨bits, rest, hbits, ha⟩ := h
  have hread : loadAddress c.parser = .ok (a, ⟨rest, c.references⟩) := by
    rw [Cell.parser, hbits]
    exact mapError_eq_ok.mp (load_address ha)
  exact load_parseCell hread p

theorem paid_decode {m : JettonGasPaidMessage} (h : PaidLog c m) :
    ∃ p, JettonGasPaidMessage.decode c.parser = .ok (m, p) := by
  obtain ⟨coins, hcoins, hbits⟩ := h.bits
  obtain ⟨refund, chain, address, hrefs, hrefund, hchain, haddress⟩ := h.references
  have hminter : AddressBits m.minter (standardBits m.minter) :=
    .inr ⟨h.workchain.1, h.workchain.2, rfl⟩
  rw [JettonGasPaidMessage.decode, Cell.parser, hbits, hrefs]
  simp only [decoder_bind, load_address hminter, load_coins hcoins, load_hash, ok_bind,
    load_nextReference, load_held hrefund, loadString_ok hchain, loadString_ok haddress]
  exact ⟨_, rfl⟩

theorem added_decode {m : JettonGasAddedMessage} (h : AddedLog c m) :
    ∃ p, JettonGasAddedMessage.decode c.parser = .ok (m, p) := by
  obtain ⟨minter, sender, coins, hminter, hsender, hcoins, hbits⟩ := h.bits
  obtain ⟨refund, hrefs, hrefund⟩ := h.references
  rw [JettonGasAddedMessage.decode, Cell.parser, hbits, hrefs]
  simp only [decoder_bind, load_address hminter, load_address hsender, load_coins hcoins,
    load_hash, ok_bind, load_nextReference, load_held hrefund]
  exact ⟨_, rfl⟩

theorem count_halves : ∀ n < 16, bitsToNat ((natToBits 4 n).take 2) = n / 4 ∧
    bitsToNat ((natToBits 4 n).drop 2) = n % 4 := by decide

/-- An amount and a hash do not begin with an address that leaves an amount and a hash. Tag `00`
makes the next count at least four times the first one, tag `10` takes too much. -/
theorem no_second_address {n : ℕ} (hn : n < 16) {amount hash : List Bool}
    (hamount : amount.length = 8 * n) (hhash : hash.length = 256) {a : TonAddress} {x : ℕ}
    {h : Bytes32} {p₁ p₂ p₃ : CellParser}
    (haddress : loadAddress ⟨natToBits 4 n ++ (amount ++ hash), refs⟩ = .ok (a, p₁))
    (hcoins : loadCoins p₁ = .ok (x, p₂)) (hload : loadBytes32 p₂ = .ok (h, p₃)) : False := by
  obtain ⟨htake, hdrop⟩ := count_halves n hn
  have hfour := natToBits_length 4 n
  obtain ⟨-, hp₂⟩ := loadCoins_bits hcoins
  have hleft := loadBytes32_bits hload
  rw [hp₂, List.length_drop] at hleft
  have hbits := loadAddress_bits haddress
  dsimp only at hbits
  rw [List.take_append_of_le_length (by omega), htake, List.drop_append_of_le_length (by omega)]
    at hbits
  rcases hbits with ⟨htag, hp₁⟩ | ⟨htag, hp₁⟩
  · have hcount : bitsToNat (p₁.bits.take 4) =
        n % 4 * 2 ^ 2 + bitsToNat ((amount ++ hash).take 2) := by
      have hsecond : ((natToBits 4 n).drop 2).length = 2 := by rw [List.length_drop, hfour]
      have hpair : ((amount ++ hash).take 2).length = 2 := by
        rw [List.length_take, List.length_append]
        omega
      rw [hp₁, List.take_append, hsecond, List.take_of_length_le (by omega), bitsToNat_concat,
        hdrop, hpair]
    have hlength : p₁.bits.length = 2 + (8 * n + 256) := by
      rw [hp₁, List.length_append, List.length_append, List.length_drop, hfour, hamount, hhash]
    omega
  · have hlength : p₁.bits.length = 4 + (8 * n + 256) - 267 := by
      rw [hp₁, List.length_drop, List.length_append, List.length_append, hfour, hamount, hhash]
    omega

/-- A log of paid gas is never taken for one of added gas. -/
theorem added_rejects_paid {m : JettonGasPaidMessage} (h : PaidLog c m) :
    ∃ e, JettonGasAddedMessage.decode c.parser = .error e := by
  obtain ⟨coins, ⟨n, hn, hamount, rfl⟩, hbits⟩ := h.bits
  cases hrun : JettonGasAddedMessage.decode c.parser with
  | error e => exact ⟨e, rfl⟩
  | ok r =>
    exfalso
    obtain ⟨minter, p₁, hminter, hrun⟩ := decoder_ok hrun
    obtain ⟨sender, p₂, hsender, hrun⟩ := decoder_ok hrun
    obtain ⟨x, p₃, hcoins, hrun⟩ := decoder_ok hrun
    obtain ⟨txHash, p₄, hhash, hrun⟩ := decoder_ok hrun
    have hstandard : AddressBits m.minter (standardBits m.minter) :=
      .inr ⟨h.workchain.1, h.workchain.2, rfl⟩
    rw [Cell.parser, hbits, load_address hstandard] at hminter
    cases hminter
    rw [List.append_assoc] at hsender
    exact no_second_address hn (natToBits_length _ _) (by simp) (mapError_eq_ok.mp hsender)
      (mapError_eq_ok.mp hcoins) (mapError_eq_ok.mp hhash)

end Bodies

section Classification

variable {D L : Type} {t : TraceParser D} {tx : Transaction} {c : Cell} {body : String}

/-- A transfer notification to the gas service whose first out message is a log with this
cell. -/
structure JettonTransaction (t : TraceParser D) (tx : Transaction) (body : String) (c : Cell) :
    Prop where
  account : tx.account = t.gasServiceAddress
  opcode : tx.inMsg.bind (·.opcode) = some opTransferNotification
  log : ∃ msg, tx.outMsgs[0]? = some msg ∧ msg.destination = none ∧
    msg.messageContent.body = body
  boc : t.lib.fromBocB64 body = .ok c

theorem emitted_opcode (h : JettonTransaction t tx body c) (opCode : UInt32) (index : ℕ) :
    isLogEmmittedInOpcode tx opCode index = true → opCode = opTransferNotification := by
  intro hlog
  by_contra hne
  have hfilter : (some opTransferNotification).filter (· = opCode) = none := by
    simp [Option.filter, Ne.symm hne]
  rw [isLogEmmittedInOpcode, h.opcode, hfilter] at hlog
  cases hlog

theorem emitted_first (h : JettonTransaction t tx body c) :
    isLogEmmittedInOpcode tx opTransferNotification 0 = true := by
  obtain ⟨msg, hmsg, hdest, -⟩ := h.log
  have hfilter : (some opTransferNotification).filter (· = opTransferNotification) =
      some opTransferNotification := by simp [Option.filter]
  rw [isLogEmmittedInOpcode, h.opcode, hfilter, hmsg]
  simp [hdest]

theorem onAccount_false {p : LogParser L} {r : Outcome (Bool × LogParser L)}
    (h : r = .ok (false, p)) : onAccount p r = .ok (false, p) := by
  rw [onAccount]
  split
  · rfl
  · exact h

theorem checkLog_other (h : JettonTransaction t tx body c) {opCode : UInt32}
    (hne : opCode ≠ opTransferNotification) (index : ℕ) {p : LogParser L} (hp : p.tx = tx) :
    checkLog opCode index p = .ok (false, p) := by
  have hlog : isLogEmmittedInOpcode p.tx opCode index = false := by
    rw [hp]
    exact Bool.eq_false_iff.mpr fun hlog => hne (emitted_opcode h opCode index hlog)
  rw [checkLog, hlog]
  exact onAccount_false rfl

/-- The parsers that are tried before the jetton logs look for other op codes. -/
theorem earlier_check (h : JettonTransaction t tx body c) {n : ParserName}
    (hn : n ∈ [ParserName.callContract, .messageExecuted, .messageApproved, .nativeGasPaid,
      .nativeGasAdded]) {p : LogParser n.Log} (hp : p.tx = tx) :
    n.checkMatch t.lib p = .ok (false, p) := by
  have hnone {opCode : UInt32} (hne : opCode ≠ opTransferNotification) (index : ℕ) :
      isLogEmmittedInOpcode p.tx opCode index = false := by
    rw [hp]
    exact Bool.eq_false_iff.mpr fun hlog => hne (emitted_opcode h opCode index hlog)
  cases n with
  | callContract => exact checkLog_other h (by decide) 0 hp
  | messageApproved => exact checkLog_other h (by decide) 0 hp
  | nativeGasAdded => exact checkLog_other h (by decide) 0 hp
  | messageExecuted =>
    refine onAccount_false ?_
    rw [hnone (by decide), hnone (by decide)]
    rfl
  | nativeGasPaid =>
    refine onAccount_false ?_
    rw [hnone (by decide), hnone (by decide)]
    rfl
  | _ => simp at hn

theorem firstMatch_skip {n : ParserName} {ns : List ParserName} {p : LogParser n.Log}
    (h : n.checkMatch t.lib { tx, allowedAddress := address t n.contract } = .ok (false, p)) :
    firstMatch t tx (n :: ns) = firstMatch t tx ns := by
  rw [firstMatch, h]
  rfl

theorem firstMatch_take {n : ParserName} {ns : List ParserName} {p p' : LogParser n.Log}
    (h : n.checkMatch t.lib { tx, allowedAddress := address t n.contract } = .ok (true, p))
    (hparse : n.parse t.lib p = .ok p') : firstMatch t tx (n :: ns) = .ok (some ⟨n, p'⟩) := by
  rw [firstMatch, h]
  exact bind_eq_ok.mpr ⟨(true, p), rfl, bind_eq_ok.mpr ⟨p', hparse, rfl⟩⟩

/-- The jetton parsers are the first that look at the transaction. -/
theorem createTxParser_jetton (h : JettonTransaction t tx body c) :
    createTxParser t tx = firstMatch t tx (cascade.drop 5) := by
  have hskip {n : ParserName} (hn : n ∈ [ParserName.callContract, .messageExecuted,
      .messageApproved, .nativeGasPaid, .nativeGasAdded]) (ns : List ParserName) :
      firstMatch t tx (n :: ns) = firstMatch t tx ns :=
    firstMatch_skip (earlier_check h hn rfl)
  rw [createTxParser, cascade, hskip (by simp), hskip (by simp), hskip (by simp),
    hskip (by simp), hskip (by simp)]
  rfl

theorem checkJettonLog_eq (h : JettonTransaction t tx body c)
    (decode : String → Except BocError L) {p : LogParser L} (hp : p.tx = tx)
    (ha : p.allowedAddress = t.gasServiceAddress) :
    checkJettonLog decode p = .ok ((decode body).isOk, p) := by
  obtain ⟨msg, hmsg, -, hbody⟩ := h.log
  have haccount : ¬ p.tx.account ≠ p.allowedAddress := by
    rw [hp, ha]
    exact not_not.mpr h.account
  rw [checkJettonLog, onAccount, if_neg haccount, hp, if_pos (emitted_first h), hmsg]
  dsimp only
  rw [hbody]

theorem parseLog_first (h : JettonTransaction t tx body c) {decode : String → Except BocError L}
    {log : L} (hdecode : decode body = .ok log) :
    parseLog decode 0 { tx, allowedAddress := t.gasServiceAddress } =
      .ok { tx, allowedAddress := t.gasServiceAddress, log := some log } := by
  obtain ⟨msg, hmsg, -, hbody⟩ := h.log
  rw [parseLog, hmsg]
  dsimp only
  rw [setLog, hbody, hdecode]

theorem added_check (h : JettonTransaction t tx body c) :
    ParserName.jettonGasAdded.checkMatch t.lib
        { tx, allowedAddress := address t ParserName.jettonGasAdded.contract } =
      .ok ((fromBocB64 t.lib.fromBocB64 JettonGasAddedMessage.decode body).isOk,
        { tx, allowedAddress := t.gasServiceAddress }) := checkJettonLog_eq h _ rfl rfl

theorem paid_check (h : JettonTransaction t tx body c) :
    ParserName.jettonGasPaid.checkMatch t.lib
        { tx, allowedAddress := address t ParserName.jettonGasPaid.contract } =
      .ok ((fromBocB64 t.lib.fromBocB64 JettonGasPaidMessage.decode body).isOk,
        { tx, allowedAddress := t.gasServiceAddress }) := checkJettonLog_eq h _ rfl rfl

/-- The two jetton logs are told apart: no log of paid gas decodes as one of added gas, and each
is classified as what it is, with the fields that were encoded. -/
theorem jetton_logs_told_apart (h : JettonTransaction t tx body c) :
    (∀ m, PaidLog c m →
      (∃ e, fromBocB64 t.lib.fromBocB64 JettonGasAddedMessage.decode body = .error e) ∧
      createTxParser t tx = .ok (some ⟨.jettonGasPaid,
        { tx, allowedAddress := t.gasServiceAddress, log := some m }⟩)) ∧
    ∀ m, AddedLog c m →
      createTxParser t tx = .ok (some ⟨.jettonGasAdded,
        { tx, allowedAddress := t.gasServiceAddress, log := some m }⟩) := by
  rw [createTxParser_jetton h]
  constructor
  · intro m hm
    obtain ⟨e, he⟩ := added_rejects_paid hm
    have hadded : fromBocB64 t.lib.fromBocB64 JettonGasAddedMessage.decode body = .error e := by
      rw [fromBocB64_eq h.boc, he]
      rfl
    have hpaid := (fromBocB64_eq_ok h.boc).mpr (paid_decode hm)
    have hskip := added_check h
    have htake := paid_check h
    rw [hadded] at hskip
    rw [hpaid] at htake
    have hparse : ParserName.jettonGasPaid.parse t.lib
        { tx, allowedAddress := t.gasServiceAddress } = .ok _ := parseLog_first h hpaid
    exact ⟨⟨e, hadded⟩, (firstMatch_skip hskip).trans (firstMatch_take htake hparse)⟩
  · intro m hm
    have hadded := (fromBocB64_eq_ok h.boc).mpr (added_decode hm)
    have htake := added_check h
    rw [hadded] at htake
    have hparse : ParserName.jettonGasAdded.parse t.lib
        { tx, allowedAddress := t.gasServiceAddress } = .ok _ := parseLog_first h hadded
    exact firstMatch_take htake hparse

end Classification

section Samples

/-- Seven units of the jetton of the account 5: paid for a call, with the amount in two bytes,
and added by nobody in particular. -/
def paidJettonBody : String :=
  "te6cckEBBAEAfgADh4AAoKCgoKCgoKCgoKCgoKCgoKCgoKCgoKCgoKCgoKCgoKQADgkyns+4q2E9ApVv/5G+bQ1pX2" ++
  "V2p8wdXS/eCH/Af3BTAQIDAEOAAQEBAQEBAQEBAQEBAQEBAQEBAQEBAQEBAQEBAQEBAQEQABJhdmFsYW5jaGUACDB4" ++
  "ZDez3vEd"

def addedJettonBody : String :=
  "te6cckEBAgEAawABh4AAoKCgoKCgoKCgoKCgoKCgoKCgoKCgoKCgoKCgoKCgoKCD1VVVVVVVVVVVVVVVVVVVVVVVVV" ++
  "VVVVVVVVVVVVVVVVVAAQBDgAEBAQEBAQEBAQEBAQEBAQEBAQEBAQEBAQEBAQEBAQEBEKQOx48="

def paidMessage : JettonGasPaidMessage :=
  ⟨account 5, sampleKeccak [42], 7, account 8, "avalanche", "0xd7"⟩

def addedMessage : JettonGasAddedMessage :=
  ⟨account 5, TonAddress.null, ⟨List.replicate 32 170, rfl⟩, 7, account 8⟩

def refundCell : Cell := builtCell (standardBits (account 8)) []

def paidJettonCell : Cell :=
  builtCell (standardBits (account 5) ++ ((natToBits 4 2 ++ natToBits (8 * 2) 7) ++
      bytesBits (sampleKeccak [42]).toList))
    [refundCell, builtText "avalanche", builtText "0xd7"]

def addedJettonCell : Cell :=
  builtCell (standardBits (account 5) ++ ([false, false] ++
    ((natToBits 4 1 ++ natToBits (8 * 1) 7) ++ bytesBits addedMessage.txHash.toList))) [refundCell]

def jettonBoc (text : String) : Except CellError Cell :=
  if text = paidJettonBody then .ok paidJettonCell
  else if text = addedJettonBody then .ok addedJettonCell
  else .error .badBoc

def jettonParser : TraceParser ℕ :=
  { sampleParser with lib := { sampleLibraries with fromBocB64 := jettonBoc } }

theorem account_bits (n : UInt8) : AddressBits (account n) (standardBits (account n)) :=
  .inr ⟨by simp [account], by simp [account], rfl⟩

theorem refundCell_holds : HoldsAddress refundCell (account 8) := by
  have hbuilt : refundCell.bits = standardBits (account 8) ∧ refundCell.references = [] :=
    builtCell_ok (by rw [standardBits_length]; decide) (by simp)
  exact ⟨_, [], hbuilt.1.trans (List.append_nil _).symm, account_bits 8⟩

theorem paidJettonCell_log : PaidLog paidJettonCell paidMessage := by
  have hbuilt : paidJettonCell.bits = standardBits (account 5) ++
        ((natToBits 4 2 ++ natToBits (8 * 2) 7) ++ bytesBits (sampleKeccak [42]).toList) ∧
      paidJettonCell.references = [refundCell, builtText "avalanche", builtText "0xd7"] :=
    builtCell_ok (by simp [standardBits_length]) (by simp)
  exact {
    workchain := by decide
    bits := ⟨_, ⟨2, by decide, by decide, rfl⟩, hbuilt.1⟩
    references := ⟨_, _, _, hbuilt.2, refundCell_holds, by decide +kernel, by decide +kernel⟩ }

theorem addedJettonCell_log : AddedLog addedJettonCell addedMessage := by
  have hbuilt : addedJettonCell.bits = standardBits (account 5) ++ ([false, false] ++
        ((natToBits 4 1 ++ natToBits (8 * 1) 7) ++ bytesBits addedMessage.txHash.toList)) ∧
      addedJettonCell.references = [refundCell] :=
    builtCell_ok (by simp [standardBits_length]) (by simp)
  exact {
    bits := ⟨_, _, _, account_bits 5, .inl ⟨rfl, rfl⟩, ⟨1, by decide, by decide, rfl⟩, hbuilt.1⟩
    references := ⟨_, hbuilt.2, refundCell_holds⟩ }

theorem jetton_transaction {body : String} {c : Cell} (h : jettonBoc body = .ok c) :
    JettonTransaction jettonParser (logTransaction 2 1 opTransferNotification body) body c :=
  ⟨rfl, rfl, ⟨_, rfl, rfl, rfl⟩, h⟩

theorem jetton_logs_told_apart_seven :
    createTxParser jettonParser (logTransaction 2 1 opTransferNotification paidJettonBody) =
      .ok (some ⟨.jettonGasPaid,
        { tx := logTransaction 2 1 opTransferNotification paidJettonBody
          allowedAddress := account 2, log := some paidMessage }⟩) ∧
    createTxParser jettonParser (logTransaction 2 1 opTransferNotification addedJettonBody) =
      .ok (some ⟨.jettonGasAdded,
        { tx := logTransaction 2 1 opTransferNotification addedJettonBody
          allowedAddress := account 2, log := some addedMessage }⟩) := by
  have hpaid : jettonBoc paidJettonBody = .ok paidJettonCell := by rw [jettonBoc, if_pos rfl]
  have hadded : jettonBoc addedJettonBody = .ok addedJettonCell := by
    rw [jettonBoc, if_neg (by decide +kernel), if_pos rfl]
  constructor
  · exact ((jetton_logs_told_apart (jetton_transaction hpaid)).1 _ paidJettonCell_log).2
  · exact (jetton_logs_told_apart (jetton_transaction hadded)).2 _ addedJettonCell_log

end Samples

end JettonLogs
