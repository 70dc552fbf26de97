import TonRelayer.ByteEncodings
import TonRelayer.JsonCodecs

/-! Traces on their way through the queue, with all their fields.
The subscriber reads them from the answers of the API and writes them into queue items, from
which the ingestor reads them again. The text of JSON, the text of addresses and the order in
which a `HashMap` visits its entries are parameters. -/
namespace QueueItems

open Cells ByteEncodings JsonTrees JsonCodecs SortedEntries ExceptRules

variable {F : Type}

section Data

structure ExtraCurrencies (F : Type) where
  map : SortedMap String (Value F)

structure StoragePhase where
  storageFeesCollected : String
  statusChange : String

structure CreditPhase where
  credit : String

structure ComputePhase where
  skipped : Bool
  success : Option Bool
  msgStateUsed : Option Bool
  accountActivated : Option Bool
  gasFees : Option String
  gasUsed : Option String
  gasLimit : Option String
  mode : Option UInt32
  exitCode : Option Int32
  vmSteps : Option UInt64
  vmInitStateHash : Option String
  vmFinalStateHash : Option String

structure MessageSize where
  cells : String
  bits : String

structure Action where
  success : Option Bool
  valid : Bool
  noFunds : Bool
  statusChange : String
  totalFwdFees : Option String
  totalActionFees : Option String
  resultCode : Int32
  totActions : UInt32
  specActions : UInt32
  skippedActions : UInt32
  msgsCreated : UInt32
  actionListHash : String
  totMsgSize : MessageSize

structure TransactionDescription where
  txType : String
  aborted : Bool
  destroyed : Bool
  creditFirst : Bool
  storagePh : StoragePhase
  creditPh : Option CreditPhase
  computePh : Option ComputePhase
  action : Option Action

structure BlockRef where
  workchain : Int32
  shard : String
  seqno : UInt32

structure MessageContent (F : Type) where
  hash : String
  body : String
  decoded : Option (Value F)

structure TransactionMessage (F : Type) where
  hash : String
  source : Option String
  destination : Option TonAddress
  value : Option String
  valueExtraCurrencies : Option (ExtraCurrencies F)
  fwdFee : Option String
  ihrFee : Option String
  createdLt : Option String
  createdAt : Option String
  opcode : Option UInt32
  ihrDisabled : Option Bool
  bounce : Option Bool
  bounced : Option Bool
  importFee : Option String
  messageContent : MessageContent F
  initState : Option (Value F)

structure AccountStateBalance (F : Type) where
  hash : String
  balance : Option String
  extraCurrencies : Option (ExtraCurrencies F)
  accountStatus : Option String
  frozenHash : Option String
  dataHash : Option String
  codeHash : Option String

structure Transaction (F : Type) where
  account : TonAddress
  hash : String
  lt : Int64
  now : UInt64
  mcBlockSeqno : UInt64
  traceId : String
  prevTransHash : String
  prevTransLt : String
  origStatus : String
  endStatus : String
  totalFees : UInt64
  totalFeesExtraCurrencies : ExtraCurrencies F
  description : TransactionDescription
  blockRef : BlockRef
  inMsg : Option (TransactionMessage F)
  outMsgs : List (TransactionMessage F)
  accountStateBefore : AccountStateBalance F
  accountStateAfter : AccountStateBalance F
  emulated : Bool

structure Trace (F : Type) where
  isIncomplete : Bool
  startLt : Int64
  endLt : Int64
  traceId : String
  transactions : List (Transaction F)

structure TraceRest (F : Type) where
  isIncomplete : Bool
  startLt : Int64
  endLt : Int64
  traceId : String
  transactions : SortedMap String (Transaction F)
  transactionsOrder : List String

structure TracesResponseRest (F : Type) where
  traces : List (TraceRest F)

structure TracesResponse (F : Type) where
  traces : List (Trace F)

end Data

section Opcodes

/-- `trim_start_matches("0x")` -/
def trim0x : List Char → List Char
  | '0' :: 'x' :: cs => trim0x cs
  | cs => cs

/-- `u32::from_str_radix(.., 16)` -/
def fromStrRadix16 (cs : List Char) : Except String UInt32 :=
  let digits := match cs with
    | '+' :: ds => ds
    | ds => ds
  if cs = [] then .error "cannot parse integer from empty string"
  else if digits = [] then .error "invalid digit found in string"
  else match digits.mapM hexValue with
    | none => .error "invalid digit found in string"
    | some ds =>
      let n := ds.foldl (fun n d => n * 16 + d) 0
      if n < 2 ^ 32 then .ok (UInt32.ofNat n)
      else .error "number too large to fit in target type"

/-- Reads hex text or a number, cut to 32 bits; writes a number. -/
def hexU32 : Codec F (Option UInt32) where
  encode
    | none => .null
    | some n => .number (.posInt n.toUInt64)
  decode
    | .null => .ok none
    | .string s => (fromStrRadix16 (trim0x s.toList)).map some
    | .number (.posInt n) => .ok (some n.toUInt32)
    | .number _ => .error "Expected u64 number"
    | _ => .error "Expected string or number for opcode"

example : (hexU32 (F := ℕ)).decode (.string "0x0x2A") = .ok (some 42) := by decide

instance hexU32_lawful : (hexU32 (F := F)).Lawful where
  stable := by
    intro j a _
    cases a with
    | none => rfl
    | some n => simp [Codec.ReadsBack, hexU32]
  nonNull := by
    intro j a hj hnull
    cases a with
    | some n => cases hnull
    | none =>
      cases j with
      | null => rfl
      | string s =>
        obtain ⟨n, -, h⟩ := map_eq_ok.mp hj
        cases h
      | number n => cases n <;> cases hj
      | _ => cases hj

end Opcodes

section Codecs

structure AddressText where
  display : TonAddress → String
  fromStr : String → Except String TonAddress

def AddressText.address (A : AddressText) : Codec F TonAddress :=
  displayFromStr A.display A.fromStr

variable (A : AddressText) (I : Iteration)

/-- A struct whose only field is a flattened map. -/
def extraCurrencies : Codec F (ExtraCurrencies F) where
  encode e := (hashMap I value).encode e.map
  decode j := ((hashMap I value).decode j).map .mk

instance extraCurrencies_lawful : (extraCurrencies (F := F) I).Lawful where
  stable := by
    intro j e hj
    obtain ⟨m, hm, rfl⟩ := map_eq_ok.mp hj
    have hback := hashMap_lawful.stable j m hm
    rw [Codec.ReadsBack] at hback
    simp only [Codec.ReadsBack, extraCurrencies, hback]
    rfl
  nonNull := by
    intro j e _ h
    cases h

def storagePhase : Codec F StoragePhase :=
  record ((required "storage_fees_collected" string).and <|
    (required "status_change" string).and noFields)
    (fun p => (p.storageFeesCollected, p.statusChange, ()))
    (fun (storageFeesCollected, statusChange, _) => ⟨storageFeesCollected, statusChange⟩)

instance storagePhase_lawful : (storagePhase (F := F)).Lawful :=
  record_lawful (of_decide_eq_true rfl) fun _ => rfl

def creditPhase : Codec F CreditPhase :=
  record ((required "credit" string).and noFields)
    (fun p => (p.credit, ()))
    (fun (credit, _) => ⟨credit⟩)

instance creditPhase_lawful : (creditPhase (F := F)).Lawful :=
  record_lawful (of_decide_eq_true rfl) fun _ => rfl

def computePhase : Codec F ComputePhase :=
  record (
    (required "skipped" boolean).and <|
    (optional "success" boolean).and <|
    (optional "msg_state_used" boolean).and <|
    (optional "account_activated" boolean).and <|
    (optional "gas_fees" string).and <|
    (optional "gas_used" string).and <|
    (optional "gas_limit" string).and <|
    (optional "mode" u32.number).and <|
    (optional "exit_code" i32.number).and <|
    (optional "vm_steps" u64.number).and <|
    (optional "vm_init_state_hash" string).and <|
    (optional "vm_final_state_hash" string).and noFields)
    (fun p => (p.skipped, p.success, p.msgStateUsed, p.accountActivated, p.gasFees, p.gasUsed,
      p.gasLimit, p.mode, p.exitCode, p.vmSteps, p.vmInitStateHash, p.vmFinalStateHash, ()))
    (fun (skipped, success, msgStateUsed, accountActivated, gasFees, gasUsed, gasLimit, mode,
      exitCode, vmSteps, vmInitStateHash, vmFinalStateHash, _) =>
      ⟨skipped, success, msgStateUsed, accountActivated, gasFees, gasUsed, gasLimit, mode, exitCode,
        vmSteps, vmInitStateHash, vmFinalStateHash⟩)

instance computePhase_lawful : (computePhase (F := F)).Lawful :=
  record_lawful (of_decide_eq_true rfl) fun _ => rfl

def messageSize : Codec F MessageSize :=
  record ((required "cells" string).and <| (required "bits" string).and noFields)
    (fun p => (p.cells, p.bits, ()))
    (fun (cells, bits, _) => ⟨cells, bits⟩)

instance messageSize_lawful : (messageSize (F := F)).Lawful :=
  record_lawful (of_decide_eq_true rfl) fun _ => rfl

def action : Codec F Action :=
  record (
    (optional "success" boolean).and <|
    (required "valid" boolean).and <|
    (required "no_funds" boolean).and <|
    (required "status_change" string).and <|
    (defaulted "total_fwd_fees" string).and <|
    (defaulted "total_action_fees" string).and <|
    (required "result_code" i32.number).and <|
    (required "tot_actions" u32.number).and <|
    (required "spec_actions" u32.number).and <|
    (required "skipped_actions" u32.number).and <|
    (required "msgs_created" u32.number).and <|
    (required "action_list_hash" string).and <|
    (required "tot_msg_size" messageSize).and noFields)
    (fun p => (p.success, p.valid, p.noFunds, p.statusChange, p.totalFwdFees, p.totalActionFees,
      p.resultCode, p.totActions, p.specActions, p.skippedActions, p.msgsCreated, p.actionListHash,
      p.totMsgSize, ()))
    (fun (success, valid, noFunds, statusChange, totalFwdFees, totalActionFees, resultCode,
      totActions, specActions, skippedActions, msgsCreated, actionListHash, totMsgSize, _) =>
      ⟨success, valid, noFunds, statusChange, totalFwdFees, totalActionFees, resultCode, totActions,
        specActions, skippedActions, msgsCreated, actionListHash, totMsgSize⟩)

instance action_lawful : (action (F := F)).Lawful :=
  record_lawful (of_decide_eq_true rfl) fun _ => rfl

def transactionDescription : Codec F TransactionDescription :=
  record (
    (required "type" string).and <|
    (required "aborted" boolean).and <|
    (required "destroyed" boolean).and <|
    (required "credit_first" boolean).and <|
    (required "storage_ph" storagePhase).and <|
    (optional "credit_ph" creditPhase).and <|
    (optional "compute_ph" computePhase).and <|
    (defaulted "action" action).and noFields)
    (fun p => (p.txType, p.aborted, p.destroyed, p.creditFirst, p.storagePh, p.creditPh,
      p.computePh, p.action, ()))
    (fun (txType, aborted, destroyed, creditFirst, storagePh, creditPh, computePh, action, _) =>
      ⟨txType, aborted, destroyed, creditFirst, storagePh, creditPh, computePh, action⟩)

instance transactionDescription_lawful : (transactionDescription (F := F)).Lawful :=
  record_lawful (of_decide_eq_true rfl) fun _ => rfl

def blockRef : Codec F BlockRef :=
  record ((required "workchain" i32.number).and <|
    (required "shard" string).and <|
    (required "seqno" u32.number).and noFields)
    (fun p => (p.workchain, p.shard, p.seqno, ()))
    (fun (workchain, shard, seqno, _) => ⟨workchain, shard, seqno⟩)

instance blockRef_lawful : (blockRef (F := F)).Lawful :=
  record_lawful (of_decide_eq_true rfl) fun _ => rfl

def messageContent : Codec F (MessageContent F) :=
  record ((required "hash" string).and <|
    (required "body" string).and <|
    (optional "decoded" value).and noFields)
    (fun p => (p.hash, p.body, p.decoded, ()))
    (fun (hash, body, decoded, _) => ⟨hash, body, decoded⟩)

instance messageContent_lawful : (messageContent (F := F)).Lawful :=
  record_lawful (of_decide_eq_true rfl) fun _ => rfl

def transactionMessage : Codec F (TransactionMessage F) :=
  record (
    (required "hash" string).and <|
    (optional "source" string).and <|
    (defaulted "destination" A.address).and <|
    (optional "value" string).and <|
    (optional "value_extra_currencies" (extraCurrencies I)).and <|
    (optional "fwd_fee" string).and <|
    (optional "ihr_fee" string).and <|
    (optional "created_lt" string).and <|
    (optional "created_at" string).and <|
    (required "opcode" hexU32).and <|
    (optional "ihr_disabled" boolean).and <|
    (optional "bounce" boolean).and <|
    (optional "bounced" boolean).and <|
    (optional "import_fee" string).and <|
    (required "message_content" messageContent).and <|
    (optional "init_state" value).and noFields)
    (fun p => (p.hash, p.source, p.destination, p.value, p.valueExtraCurrencies, p.fwdFee, p.ihrFee,
      p.createdLt, p.createdAt, p.opcode, p.ihrDisabled, p.bounce, p.bounced, p.importFee,
      p.messageContent, p.initState, ()))
    (fun (hash, source, destination, value, valueExtraCurrencies, fwdFee, ihrFee, createdLt,
      createdAt, opcode, ihrDisabled, bounce, bounced, importFee, messageContent, initState, _) =>
      ⟨hash, source, destination, value, valueExtraCurrencies, fwdFee, ihrFee, createdLt, createdAt,
        opcode, ihrDisabled, bounce, bounced, importFee, messageContent, initState⟩)

instance transactionMessage_lawful [(A.address (F := F)).Lawful] :
    (transactionMessage A I (F := F)).Lawful :=
  record_lawful (of_decide_eq_true rfl) fun _ => rfl

def accountStateBalance : Codec F (AccountStateBalance F) :=
  record (
    (required "hash" string).and <|
    (optional "balance" string).and <|
    (optional "extra_currencies" (extraCurrencies I)).and <|
    (optional "account_status" string).and <|
    (optional "frozen_hash" string).and <|
    (optional "data_hash" string).and <|
    (optional "code_hash" string).and noFields)
    (fun p => (p.hash, p.balance, p.extraCurrencies, p.accountStatus, p.frozenHash, p.dataHash,
      p.codeHash, ()))
    (fun (hash, balance, extraCurrencies, accountStatus, frozenHash, dataHash, codeHash, _) =>
      ⟨hash, balance, extraCurrencies, accountStatus, frozenHash, dataHash, codeHash⟩)

instance accountStateBalance_lawful : (accountStateBalance I (F := F)).Lawful :=
  record_lawful (of_decide_eq_true rfl) fun _ => rfl

def transaction : Codec F (Transaction F) :=
  record (
    (required "account" A.address).and <|
    (required "hash" string).and <|
    (required "lt" i64.text).and <|
    (required "now" u64.number).and <|
    (required "mc_block_seqno" u64.number).and <|
    (required "trace_id" string).and <|
    (required "prev_trans_hash" string).and <|
    (required "prev_trans_lt" string).and <|
    (required "orig_status" string).and <|
    (required "end_status" string).and <|
    (required "total_fees" u64.text).and <|
    (required "total_fees_extra_currencies" (extraCurrencies I)).and <|
    (required "description" transactionDescription).and <|
    (required "block_ref" blockRef).and <|
    (optional "in_msg" (transactionMessage A I)).and <|
    (required "out_msgs" (list (transactionMessage A I))).and <|
    (required "account_state_before" (accountStateBalance I)).and <|
    (required "account_state_after" (accountStateBalance I)).and <|
    (required "emulated" boolean).and noFields)
    (fun p => (p.account, p.hash, p.lt, p.now, p.mcBlockSeqno, p.traceId, p.prevTransHash,
      p.prevTransLt, p.origStatus, p.endStatus, p.totalFees, p.totalFeesExtraCurrencies,
      p.description, p.blockRef, p.inMsg, p.outMsgs, p.accountStateBefore, p.accountStateAfter,
      p.emulated, ()))
    (fun (account, hash, lt, now, mcBlockSeqno, traceId, prevTransHash, prevTransLt, origStatus,
      endStatus, totalFees, totalFeesExtraCurrencies, description, blockRef, inMsg, outMsgs,
      accountStateBefore, accountStateAfter, emulated, _) =>
      ⟨account, hash, lt, now, mcBlockSeqno, traceId, prevTransHash, prevTransLt, origStatus,
        endStatus, totalFees, totalFeesExtraCurrencies, description, blockRef, inMsg, outMsgs,
        accountStateBefore, accountStateAfter, emulated⟩)

instance transaction_lawful [(A.address (F := F)).Lawful] :
    (transaction A I (F := F)).Lawful :=
  record_lawful (of_decide_eq_true rfl) fun _ => rfl

def trace : Codec F (Trace F) :=
  record (
    (required "is_incomplete" boolean).and <|
    (required "start_lt" i64.text).and <|
    (required "end_lt" i64.text).and <|
    (required "trace_id" string).and <|
    (required "transactions" (list (transaction A I))).and noFields)
    (fun p => (p.isIncomplete, p.startLt, p.endLt, p.traceId, p.transactions, ()))
    (fun (isIncomplete, startLt, endLt, traceId, transactions, _) =>
      ⟨isIncomplete, startLt, endLt, traceId, transactions⟩)

instance trace_lawful [(A.address (F := F)).Lawful] :
    (trace A I (F := F)).Lawful :=
  record_lawful (of_decide_eq_true rfl) fun _ => rfl

def traceRest : Codec F (TraceRest F) :=
  record (
    (required "is_incomplete" boolean).and <|
    (required "start_lt" i64.text).and <|
    (required "end_lt" i64.text).and <|
    (required "trace_id" string).and <|
    (required "transactions" (hashMap I (transaction A I))).and <|
    (required "transactions_order" (list string)).and noFields)
    (fun p => (p.isIncomplete, p.startLt, p.endLt, p.traceId, p.transactions, p.transactionsOrder,
      ()))
    (fun (isIncomplete, startLt, endLt, traceId, transactions, transactionsOrder, _) =>
      ⟨isIncomplete, startLt, endLt, traceId, transactions, transactionsOrder⟩)

instance traceRest_lawful [(A.address (F := F)).Lawful] :
    (traceRest A I (F := F)).Lawful :=
  record_lawful (of_decide_eq_true rfl) fun _ => rfl

def tracesResponseRest : Codec F (TracesResponseRest F) :=
  record ((required "traces" (list (traceRest A I))).and noFields)
    (fun p => (p.traces, ()))
    (fun (traces, _) => ⟨traces⟩)

instance tracesResponseRest_lawful [(A.address (F := F)).Lawful] :
    (tracesResponseRest A I (F := F)).Lawful :=
  record_lawful (of_decide_eq_true rfl) fun _ => rfl

end Codecs

section Queue

/-- `serde_json` between text and trees. -/
structure SerdeJson (F : Type) where
  fromStr : String → Except String (JsonTree F)
  toString : JsonTree F → Except String String

variable (S : SerdeJson F) (A : AddressText) (I : Iteration)

/-- A key of the order that is not in the map is left out. -/
def TraceRest.trace (rest : TraceRest F) : Trace F where
  isIncomplete := rest.isIncomplete
  startLt := rest.startLt
  endLt := rest.endLt
  traceId := rest.traceId
  transactions := rest.transactionsOrder.filterMap rest.transactions.get

/-- `TracesResponse::from` -/
def TracesResponse.from (rest : TracesResponseRest F) : TracesResponse F :=
  ⟨rest.traces.map TraceRest.trace⟩

/-- The traces in the text of a successful answer. -/
def tracesForAccount (text : String) : Except String (List (Trace F)) := do
  let j ← S.fromStr text
  let rest ← (tracesResponseRest A I).decode j
  return (TracesResponse.from rest).traces

def makeQueueItem (t : Trace F) : Except String String := S.toString ((trace A I).encode t)

/-- The trace that `handle_transaction` parses. -/
def handledTrace (item : String) : Except String (Trace F) := do
  let j ← S.fromStr item
  (trace A I).decode j

variable {S A I}

theorem traceRest_transactions {j : JsonTree F} {rest : TraceRest F}
    (h : (traceRest A I).decode j = .ok rest) :
    ∀ tx ∈ rest.trace.transactions, ∃ j, (transaction A I).decode j = .ok tx := by
  obtain ⟨slots, p, hp, rfl⟩ := record_reached h
  obtain ⟨-, slots, hp⟩ := and_decode hp
  obtain ⟨-, slots, hp⟩ := and_decode hp
  obtain ⟨-, slots, hp⟩ := and_decode hp
  obtain ⟨-, slots, hp⟩ := and_decode hp
  obtain ⟨⟨s, hs⟩, -⟩ := and_decode hp
  obtain ⟨j, hj⟩ := required_read hs
  intro tx htx
  obtain ⟨key, -, hkey⟩ := List.mem_filterMap.mp htx
  obtain ⟨key, hentry⟩ := SortedMap.mem_of_get hkey
  exact hashMap_reached hj _ hentry

theorem tracesResponseRest_traces {j : JsonTree F} {rest : TracesResponseRest F}
    (h : (tracesResponseRest A I).decode j = .ok rest) :
    ∀ r ∈ rest.traces, ∃ j, (traceRest A I).decode j = .ok r := by
  obtain ⟨slots, p, hp, rfl⟩ := record_reached h
  obtain ⟨⟨s, hs⟩, -⟩ := and_decode hp
  obtain ⟨j, hj⟩ := required_read hs
  exact list_reached hj

theorem trace_readsBack [(A.address (F := F)).Lawful] {t : Trace F}
    (h : ∀ tx ∈ t.transactions, ∃ j, (transaction A I).decode j = .ok tx) :
    (trace A I).ReadsBack t := by
  apply record_readsBack (of_decide_eq_true rfl)
  · rfl
  · rfl
  · apply and_readsBack (boolean_readsBack _)
    apply and_readsBack (i64.text_readsBack _)
    apply and_readsBack (i64.text_readsBack _)
    apply and_readsBack (string_readsBack _)
    apply and_readsBack (list_readsBack h)
    rfl

/-- What the ingestor reads from the item of a trace is the trace. -/
theorem queue_round_trip {text : String} {traces : List (Trace F)} {t : Trace F}
    (haddress : ∀ s a, A.fromStr s = .ok a → A.fromStr (A.display a) = .ok a)
    (hjson : (S.toString ((trace A I).encode t) >>= S.fromStr) = .ok ((trace A I).encode t))
    (htraces : tracesForAccount S A I text = .ok traces) (ht : t ∈ traces) :
    (makeQueueItem S A I t >>= handledTrace S A I) = .ok t := by
  have hlawful : (A.address (F := F)).Lawful := displayFromStr_lawful haddress
  obtain ⟨j, -, htraces⟩ := bind_eq_ok.mp htraces
  obtain ⟨rest, hrest, htraces⟩ := bind_eq_ok.mp htraces
  cases pure_eq_ok.mp htraces
  obtain ⟨r, hr, rfl⟩ := List.mem_map.mp ht
  obtain ⟨j, hj⟩ := tracesResponseRest_traces hrest r hr
  have hback := trace_readsBack (traceRest_transactions hj)
  obtain ⟨item, hitem, hread⟩ := bind_eq_ok.mp hjson
  rw [makeQueueItem, hitem, ok_bind, handledTrace, hread, ok_bind]
  exact hback

section Sample

/-- Compact text of a tree whose strings need no escapes. -/
def quoted (s : String) : String := "\"" ++ s ++ "\""

mutual

def print : JsonTree ℕ → String
  | .null => "null"
  | .bool b => toString b
  | .number (.posInt n) => displayInt n.toNat
  | .number (.negInt n) => displayInt n.val
  | .number (.float x) => displayInt x ++ ".0"
  | .string s => quoted s
  | .array items => "[" ++ ",".intercalate (printItems items) ++ "]"
  | .object members => "\x7b" ++ ",".intercalate (printMembers members) ++ "\x7d"

def printItems : List (JsonTree ℕ) → List String
  | [] => []
  | j :: js => print j :: printItems js

def printMembers : List (String × JsonTree ℕ) → List String
  | [] => []
  | (k, j) :: ms => (quoted k ++ ":" ++ print j) :: printMembers ms

end

def sampleRawAddress : String :=
  "0:0505050505050505050505050505050505050505050505050505050505050505"

def sampleAddressText : AddressText where
  display _ := "EQAFBQUFBQUFBQUFBQUFBQUFBQUFBQUFBQUFBQUFBQUFBccf"
  fromStr s :=
    if s = sampleRawAddress ∨ s = "EQAFBQUFBQUFBQUFBQUFBQUFBQUFBQUFBQUFBQUFBQUFBccf" then
      .ok ⟨0, List.Vector.replicate 32 5⟩
    else .error "invalid address"

def inOrder : Iteration := ⟨fun l => l, fun _ => .refl _⟩

def sampleMessageTree : JsonTree ℕ :=
  .object [("hash", .string "m1"), ("destination", .string sampleRawAddress),
    ("value", .string "1000"), ("value_extra_currencies", .object [("100", .string "5")]),
    ("opcode", .string "0x00000046"),
    ("message_content", .object [("hash", .string "c1"), ("body", .string "te6c")])]

def sampleTransactionTree : JsonTree ℕ :=
  .object [("account", .string sampleRawAddress), ("hash", .string "t1"), ("lt", .string "7"),
    ("now", .number (.posInt 9)), ("mc_block_seqno", .number (.posInt 3)),
    ("trace_id", .string "a"), ("prev_trans_hash", .string "t0"), ("prev_trans_lt", .string "6"),
    ("orig_status", .string "active"), ("end_status", .string "active"),
    ("total_fees", .string "40"), ("total_fees_extra_currencies", .object []),
    ("description", .object [("type", .string "ord"), ("aborted", .bool false),
      ("destroyed", .bool false), ("credit_first", .bool false),
      ("storage_ph", .object [("storage_fees_collected", .string "1"),
        ("status_change", .string "unchanged")])]),
    ("block_ref", .object [("workchain", .number (.negInt ⟨-1, by decide⟩)),
      ("shard", .string "8000000000000000"), ("seqno", .number (.posInt 5))]),
    ("in_msg", sampleMessageTree), ("out_msgs", .array []),
    ("account_state_before", .object [("hash", .string "s1")]),
    ("account_state_after", .object [("hash", .string "s2")]), ("emulated", .bool false)]

def sampleRestTree : JsonTree ℕ :=
  .object [("traces", .array [.object [("is_incomplete", .bool false), ("start_lt", .string "7"),
    ("end_lt", .string "8"), ("trace_id", .string "a"),
    ("transactions", .object [("t1", sampleTransactionTree)]),
    ("transactions_order", .array [.string "t1"])]])]

def sampleAddress : TonAddress := ⟨0, List.Vector.replicate 32 5⟩

def sampleMessage : TransactionMessage ℕ where
  hash := "m1"
  source := none
  destination := some sampleAddress
  value := some "1000"
  valueExtraCurrencies := some ⟨.ofList [("100", ⟨.string "5", by simp [canonical]⟩)]⟩
  fwdFee := none
  ihrFee := none
  createdLt := none
  createdAt := none
  opcode := some 0x46
  ihrDisabled := none
  bounce := none
  bounced := none
  importFee := none
  messageContent := ⟨"c1", "te6c", none⟩
  initState := none

def sampleState (hash : String) : AccountStateBalance ℕ :=
  ⟨hash, none, none, none, none, none, none⟩

def sampleTransaction : Transaction ℕ where
  account := sampleAddress
  hash := "t1"
  lt := 7
  now := 9
  mcBlockSeqno := 3
  traceId := "a"
  prevTransHash := "t0"
  prevTransLt := "6"
  origStatus := "active"
  endStatus := "active"
  totalFees := 40
  totalFeesExtraCurrencies := ⟨.ofList []⟩
  description := ⟨"ord", false, false, false, ⟨"1", "unchanged"⟩, none, none, none⟩
  blockRef := ⟨-1, "8000000000000000", 5⟩
  inMsg := some sampleMessage
  outMsgs := []
  accountStateBefore := sampleState "s1"
  accountStateAfter := sampleState "s2"
  emulated := false

def sampleTrace : Trace ℕ := ⟨false, 7, 8, "a", [sampleTransaction]⟩

def sampleItemTree : JsonTree ℕ := (trace sampleAddressText inOrder).encode sampleTrace

/-- Knows the texts of two trees. -/
def sampleJson (item rest : JsonTree ℕ) : SerdeJson ℕ where
  fromStr s :=
    if s = print item then .ok item
    else if s = print rest then .ok rest
    else .error "expected value"
  toString j := .ok (print j)

theorem sampleJson_item (item rest : JsonTree ℕ) :
    ((sampleJson item rest).toString item >>= (sampleJson item rest).fromStr) = .ok item := by
  simp [sampleJson, ok_bind]

theorem sampleJson_rest {item rest : JsonTree ℕ} (h : print rest ≠ print item) :
    (sampleJson item rest).fromStr (print rest) = .ok rest := by
  simp [sampleJson, h]

theorem sampleRest_traces :
    (tracesResponseRest sampleAddressText inOrder).decode sampleRestTree =
      .ok ⟨[⟨false, 7, 8, "a", .ofList [("t1", sampleTransaction)], ["t1"]⟩]⟩ := rfl

/-- The opcode arrives as hex text and leaves as a number. -/
theorem queue_round_trip_hex_opcode :
    (makeQueueItem (sampleJson sampleItemTree sampleRestTree) sampleAddressText inOrder
        sampleTrace >>=
      handledTrace (sampleJson sampleItemTree sampleRestTree) sampleAddressText inOrder) =
        .ok sampleTrace := by
  have haddress : ∀ s a, sampleAddressText.fromStr s = .ok a →
      sampleAddressText.fromStr (sampleAddressText.display a) = .ok a := by
    intro s a h
    simp only [sampleAddressText] at h ⊢
    split at h
    · cases h
      simp
    · cases h
  have hne : print sampleRestTree ≠ print sampleItemTree := by
    decide +kernel
  have htraces : tracesForAccount (sampleJson sampleItemTree sampleRestTree) sampleAddressText
      inOrder (print sampleRestTree) = .ok [sampleTrace] := by
    rw [tracesForAccount, sampleJson_rest hne, ok_bind, sampleRest_traces]
    rfl
  exact queue_round_trip haddress (sampleJson_item _ _) htraces (List.mem_singleton_self _)

end Sample

end Queue

end QueueItems
