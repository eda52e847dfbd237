import ComptoMiningPool.Stratum.Messages
import ComptoMiningPool.Async.Program

/-
This file models the client script: how it opens its session and how it answers a `mining.notify` line.
-/

namespace ComptoMiningPool.StratumClient

open JavaScript Async

/-- The variables of the session. Each has its value before the pool has answered. -/
structure MinerState where
  versionRollingMask : String := "1fffe000"
  extraNonce2Size : Number := 4
  sessionId : String := "DEADBEEF"
  nextId : ℕ := 1

/-- The argument of the search for a nonce. -/
structure MiningWork where
  pubkey : Bytes
  recentBlockHash : Bytes
  extraData : Bytes
  version : Number
  timestamp : Number
  startNonce : Number

/-- The calls of the script. A request is a line to the pool whose response has the same id. -/
inductive MinerCall where
  | request (fields : Fields)
  | endSocket
  | random
  | publicKey (bytes : Bytes)
  | mine (work : MiningWork)

@[reducible] def MinerAnswer : MinerCall → Type
  | .request _ => Line
  | .endSocket => Unit
  | .random => BitVec 32
  | .publicKey _ => Except Thrown Bytes
  | .mine _ => Except Thrown (BitVec 32)

abbrev MinerHistory := History MinerAnswer Unit

abbrev MinerProgram (V : Type) := Program MinerState MinerAnswer Thrown V

def createMessage (method : RequestMethod) (params : List Json) (id : ℕ) : Fields :=
  [("id", .number (.ofNat id)), ("method", .string method.text), ("params", .array params)]

def createSubscribeMessage (name : String) (prevSessionId : Json) (id : ℕ) : Fields :=
  createMessage .subscribe [.string name, prevSessionId] id

def createConfigureMessage (extensions : List Json) (extensionParams : Fields) (id : ℕ) : Fields :=
  createMessage .configure [.array extensions, .object extensionParams] id

def createAuthorizeMessage (workerName workerPassword : String) (id : ℕ) : Fields :=
  createMessage .authorize [.string workerName, .string workerPassword] id

def createSubmitMessage (userId jobId extraNonce2 nTime nonce bitsSet : String) (id : ℕ) : Fields :=
  createMessage .submit [.string userId, .string jobId, .string extraNonce2, .string nTime,
    .string nonce, .string bitsSet] id

/-- A line without a null error throws. -/
def responseResult (kind : String) : Line → Except Thrown Json
  | .response _ result => .ok result
  | _ => .error (.error (kind ++ " error"))

/-- The session id is declared as a text and the size as a number. -/
def parseSubscribeResponse (line : Line) : Except Thrown (String × Number) := do
  let result ← responseResult "Subscribe" line
  match ← Value.index (some result) 1, ← Value.index (some result) 2 with
  | some (.string sessionId), some (.number extraNonce2Size) => pure (sessionId, extraNonce2Size)
  | _, _ => .error .typeError

def parseConfigureResponse (line : Line) : Except Thrown Json := responseResult "Configure" line

def parseAuthorizeResponse (line : Line) : Except Thrown Bool := do
  match ← responseResult "Authorize" line with
  | .bool authorized => pure authorized
  | _ => pure false

def parseNotify : Line → Except Thrown MiningNotify
  | .notify params => .ok params
  | _ => .error (.error "Expected mining.notify message")

/-- The least significant byte comes first. -/
def littleEndian : ℕ → ℕ → Bytes
  | 0, _ => []
  | width + 1, n => UInt8.ofNat n :: littleEndian width (n / 256)

/-- A buffer takes between one and six bytes and a number that fits them. -/
def hexLEFromNumber (n : ℕ) (bytes : Number) : Except Thrown String :=
  match bytes.toBigInt with
  | some (.ofNat width) =>
      if 1 ≤ width ∧ width ≤ 6 ∧ n < 256 ^ width then .ok (littleEndian width n).toHex
      else .error (.error "The value is out of range")
  | _ => .error (.error "The value is out of range")

/-- The loop collects the set bits of the mask from the lowest one up, until it has two. -/
def lowestBits (mask : BitVec 32) : List ℕ → ℕ → BitVec 32 → BitVec 32
  | [], _, bitsSet => bitsSet
  | i :: rest, count, bitsSet =>
      if mask &&& 1#32 <<< i ≠ 0 then
        let bitsSet := bitsSet ||| 1#32 <<< i
        if 2 ≤ count + 1 then bitsSet else lowestBits mask rest (count + 1) bitsSet
      else lowestBits mask rest count bitsSet

def applyVersionRolling (baseVersionHex maskHex : String) : BitVec 32 × Number :=
  let baseVersion := parseHex baseVersionHex
  let mask := (parseHex maskHex).toInt32
  let bitsSet := lowestBits mask (List.range 32) 0 0
  (bitsSet, Number.or baseVersion (.ofInt32 bitsSet))

def doubleSHA256 (sha256 : Bytes → Bytes) (data : Bytes) : Bytes := sha256 (sha256 data)

/-- This is `buffer.swap32()`. -/
def swapWords (buffer : Bytes) : Except Thrown Bytes :=
  match swap32 buffer with
  | some swapped => .ok swapped
  | none => .error (.error "Buffer size must be a multiple of 32-bits")

/-- The first entry of the merkle branch is the key. A branch without entries throws. -/
def minerKey (merkleBranch : List String) : MinerProgram Bytes :=
  match merkleBranch with
  | [] => .failed .typeError
  | first :: _ => do
      let pubkey ← .perform (.publicKey (Bytes.ofHex first))
      .ofExcept pubkey

/-- The submit repeats the time of the notify line and carries the rolled bits without the version. -/
def handleNotify (sha256 : Bytes → Bytes) (rawMsg : Line) (versionRollingMask : String)
    (extraNonce2Size : Number) (sessionId : String) (nextId : ℕ) : MinerProgram (Fields × ℕ) := do
  let notify ← .ofExcept (parseNotify rawMsg)
  let rolled := applyVersionRolling notify.version.toLower versionRollingMask
  let recentBlockHash ← .ofExcept (swapWords (Bytes.ofHex notify.prevHash.toLower).reverse)
  let random : BitVec 32 ← Program.perform MinerCall.random
  let extraNonce2 ← .ofExcept (hexLEFromNumber random.toNat extraNonce2Size)
  let xhashbuf :=
    Bytes.ofHex (notify.coinbasePart1 ++ sessionId ++ extraNonce2 ++ notify.coinbasePart2)
  let extraData := doubleSHA256 sha256 xhashbuf
  let timestamp := parseHex notify.timestamp
  let pubkey ← minerKey notify.merkleBranch
  let mined ← .perform (.mine {
    pubkey, recentBlockHash, extraData, version := rolled.2, timestamp, startNonce := 0 })
  let nonce ← .ofExcept mined
  pure (createSubmitMessage "worker1" notify.jobId extraNonce2 notify.timestamp
    (padStart 8 (hexText nonce.toNat)) (int32Text rolled.1) nextId, nextId + 1)

/-- A notify line is answered with a submit, and the next id moves on. -/
def handleLine (sha256 : Bytes → Bytes) (line : Line) : MinerProgram Fields := do
  let state ← .load
  .modify fun state => { state with nextId := state.nextId + 1 }
  let handled ← handleNotify sha256 line state.versionRollingMask state.extraNonce2Size
    state.sessionId state.nextId
  .modify fun state => { state with nextId := handled.2 }
  pure handled.1

/-- A request takes the next id. -/
def request (create : ℕ → Fields) : MinerProgram Line := do
  let state ← .load
  .modify fun state => { state with nextId := state.nextId + 1 }
  Program.awaiting (MinerCall.request (create state.nextId))

/-- An empty mask and a missing mask keep the mask of the client. -/
def adoptMask (result : Json) : MinerProgram Unit := do
  let maskFromServer ← .ofExcept (Value.field (some result) "version-rolling.mask")
  match maskFromServer with
  | none => pure ()
  | some .null => pure ()
  | some (.string text) =>
      if text.toLower ≠ "" then
        .modify fun state => { state with versionRollingMask := text.toLower }
      else pure ()
  | some _ => .failed .typeError

/-- The session subscribes, negotiates version rolling, and authorizes its worker. -/
def connect (address : String) : MinerProgram Unit := do
  let subResponse ← request (createSubscribeMessage "ComptoMiner/0.1" .null)
  let subscription ← .ofExcept (parseSubscribeResponse subResponse)
  .modify fun state =>
    { state with sessionId := subscription.1, extraNonce2Size := subscription.2 }
  let state ← .load
  let cfgResponse ← request (createConfigureMessage [.string "version-rolling"]
    [("version-rolling.mask", .string state.versionRollingMask),
      ("version-rolling.min-bit-count", .number 2)])
  let result ← .ofExcept (parseConfigureResponse cfgResponse)
  adoptMask result
  let authResponse ← request (createAuthorizeMessage (address ++ ".worker1") "x")
  let authorized ← .ofExcept (parseAuthorizeResponse authResponse)
  if !authorized then Program.perform MinerCall.endSocket else pure ()

section Runs

variable (environment : MinerHistory → (call : MinerCall) → MinerAnswer call) (state : MinerState)
  (history : MinerHistory)

/-- A mask of the pool replaces the mask of the script. -/
theorem run_adoptMask_of_text {result : Json} {mask : ℕ}
    (found : Value.field (some result) "version-rolling.mask" = .ok (some (.string (hexText mask)))) :
    (adoptMask result).run environment state history =
      ⟨.ok (), { state with versionRollingMask := hexText mask }, history⟩ := by
  have nonempty : hexText mask ≠ "" := by
    intro empty
    have digits : Nat.toDigits 16 mask = [] := String.ofList_injective (empty.trans (by rfl))
    exact Nat.toDigits_ne_nil digits
  unfold adoptMask
  simp only [Program.bind_eq, found, Program.ofExcept, Program.bind, toLower_hexText, nonempty, ne_eq,
    not_false_eq_true, if_true]
  rfl

end Runs

/-- A collected bit is a bit of the mask. -/
theorem bit_contained {mask : BitVec 32} {i : ℕ} (set : mask &&& 1#32 <<< i ≠ 0) :
    1#32 <<< i &&& ~~~mask = 0 := by
  rw [← BitVec.twoPow_eq] at set ⊢
  rw [BitVec.and_twoPow] at set
  rw [BitVec.twoPow_and, BitVec.getLsbD_not]
  cases bit : mask.getLsbD i with
  | false => simp [bit] at set
  | true => simp

/-- The collected bits stay inside the mask. -/
theorem lowestBits_contained {mask : BitVec 32} (positions : List ℕ) (count : ℕ) {bitsSet : BitVec 32}
    (inside : bitsSet &&& ~~~mask = 0) : lowestBits mask positions count bitsSet &&& ~~~mask = 0 := by
  induction positions generalizing count bitsSet with
  | nil => exact inside
  | cons i rest ih =>
      rw [lowestBits]
      by_cases set : mask &&& 1#32 <<< i ≠ 0
      · have joined : (bitsSet ||| 1#32 <<< i) &&& ~~~mask = 0 := by
          rw [BitVec.and_comm, BitVec.and_or_distrib_left, BitVec.and_comm, inside, BitVec.and_comm,
            bit_contained set]
          rfl
        rw [if_pos set]
        show (if 2 ≤ count + 1 then _ else _) &&& _ = _
        split
        · exact joined
        · exact ih (count + 1) joined
      · rw [if_neg set]
        exact ih count inside

/-- A word inside the rolling bits is a small number. -/
theorem toNat_lt_of_rolling {word mask : BitVec 32} (inside : word &&& ~~~mask = 0)
    (rolling : mask &&& 0x1fffe000#32 = mask) : word.toNat < 2 ^ 31 := by
  have top : word.getLsbD 31 = false := by
    have unmasked : mask.getLsbD 31 = false := by
      rw [← rolling, BitVec.getLsbD_and]
      simp
    have outside : (word &&& ~~~mask).getLsbD 31 = false := by
      rw [inside]
      rfl
    rw [BitVec.getLsbD_and, BitVec.getLsbD_not, unmasked] at outside
    simpa using outside
  have sign : word.msb = false := by
    rw [BitVec.msb_eq_getLsbD_last]
    exact top
  simpa using BitVec.toNat_lt_of_msb_false sign

/-- The rolled version joins bits of the mask to the version of the notify line. -/
theorem applyVersionRolling_hexText {version : ℕ} (small : version ≤ 2 ^ 53) (mask : RollingMask) :
    ∃ bitsSet : BitVec 32, bitsSet &&& ~~~mask.word = 0 ∧ bitsSet.toNat < 2 ^ 31 ∧
      applyVersionRolling (hexText version) (hexText mask.word.toNat) =
        (bitsSet, Number.or (.ofNat version) (.ofNat bitsSet.toNat)) := by
  have word : (parseHex (hexText mask.word.toNat)).toInt32 = mask.word := by
    rw [parseHex_hexText (mask.word.isLt.le.trans (by norm_num)), Number.toInt32_ofNat,
      BitVec.ofNat_toNat, BitVec.setWidth_eq]
  have inside : lowestBits mask.word (List.range 32) 0 0 &&& ~~~mask.word = 0 :=
    lowestBits_contained (List.range 32) 0 (by simp)
  have small' := toNat_lt_of_rolling inside mask.contained
  refine ⟨_, inside, small', ?_⟩
  rw [applyVersionRolling, word, parseHex_hexText small, Number.ofInt32_of_lt small']

/-- Four bytes hold every 32-bit number. -/
theorem hexLEFromNumber_four (word : BitVec 32) :
    hexLEFromNumber word.toNat 4 = .ok (littleEndian 4 word.toNat).toHex := by
  have bound := word.isLt
  have width : Number.toBigInt 4 = some (.ofNat 4) := rfl
  rw [hexLEFromNumber, width]
  exact if_pos ⟨by norm_num, by norm_num, by omega⟩

end ComptoMiningPool.StratumClient
