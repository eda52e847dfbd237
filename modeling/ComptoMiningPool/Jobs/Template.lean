import ComptoMiningPool.Stratum.Messages

/-
This file models the block templates, the job templates, and the `mining.notify` line of a job.
-/

namespace ComptoMiningPool

open JavaScript

structure BlockTemplate where
  version : ℕ
  currentblockhash : String
  coinbasePart1 : String
  coinbasePart2 : String
  transactions : List String
  bits : String
  timestamp : ℕ

structure BlockData where
  id : String
  networkDifficulty : Number
  clearJobs : Bool

structure JobTemplate where
  block : BlockTemplate
  blockData : BlockData

/-- The pool builds a template from its own public key, a block hash, and the clock. -/
def getBlockTemplate (publicKey blockHash : Bytes) (milliseconds : ℕ) : BlockTemplate where
  version := 0x20000000
  currentblockhash := blockHash.toHex
  coinbasePart1 := ""
  coinbasePart2 := ""
  transactions := [publicKey.toHex]
  bits := "180eadd8"
  timestamp := milliseconds / 1000

structure MiningJob where
  jobId : String
  jobTemplateId : String
  deriving DecidableEq

namespace MiningJob

def ofTemplate (jobId : String) (template : JobTemplate) : MiningJob :=
  ⟨jobId, template.blockData.id⟩

/-- The dot of the pattern `.{2}` matches no line terminator. -/
def isLineTerminator (c : Char) : Bool :=
  c = '\n' || c = '\r' || c = '\u2028' || c = '\u2029'

/-- These are the matches of the global pattern `.{2}`. -/
def matchPairs : List Char → List (List Char)
  | first :: second :: rest =>
      if isLineTerminator first || isLineTerminator second then matchPairs (second :: rest)
      else [first, second] :: matchPairs rest
  | _ => []

def reverseHexString (hexString : String) : Except Thrown String :=
  if hexString.length % 2 ≠ 0 then .error (.error "Invalid hex string length")
  else .ok (String.ofList (matchPairs hexString.toList).reverse.flatten)

def swapEndianWords (buffer : Bytes) : Except Thrown Bytes :=
  match swap32 buffer with
  | some swapped => .ok swapped
  | none => .error (.error "Buffer size must be a multiple of 32-bits")

def swapEndianStrings (beString : String) : Except Thrown String :=
  Bytes.toHex <$> swapEndianWords (Bytes.ofHex beString)

/-- The notify line leaves both coinbase parts empty, whatever the template holds. -/
def response (job : MiningJob) (jobTemplate : JobTemplate) : Except Thrown Line := do
  let reversed ← reverseHexString jobTemplate.block.currentblockhash
  let currentBlockhashNaturalOrder ← swapEndianStrings reversed
  pure <| .notify {
    jobId := job.jobId
    prevHash := currentBlockhashNaturalOrder
    coinbasePart1 := ""
    coinbasePart2 := ""
    merkleBranch := jobTemplate.block.transactions
    version := hexText jobTemplate.block.version
    bits := jobTemplate.block.bits
    timestamp := hexText jobTemplate.block.timestamp
    clearJobs := jobTemplate.blockData.clearJobs }

/-- The line of a job is a notify line with the id of the job. -/
theorem response_ok {job : MiningJob} {template : JobTemplate} {line : Line}
    (built : job.response template = .ok line) :
    ∃ params, line = .notify params ∧ params.jobId = job.jobId := by
  unfold response at built
  obtain ⟨reversed, _, built⟩ := exists_ok_of_bind built
  obtain ⟨natural, _, built⟩ := exists_ok_of_bind built
  obtain rfl := Except.ok.inj built
  exact ⟨_, rfl, rfl⟩

theorem jobId_of_response {job : MiningJob} {template : JobTemplate} {params : MiningNotify}
    (built : job.response template = .ok (.notify params)) : params.jobId = job.jobId := by
  obtain ⟨other, same, jobId⟩ := response_ok built
  cases same
  exact jobId

theorem isLineTerminator_of_hexDigit {c : Char} (digit : (hexDigit c).isSome) :
    isLineTerminator c = false := by
  have range := toNat_of_hexDigit digit
  have different : ∀ other : Char, other.toNat < 48 ∨ 102 < other.toNat → c ≠ other := by
    rintro other outside rfl
    omega
  simp [isLineTerminator, different '\n' (by decide), different '\r' (by decide),
    different '\u2028' (by decide), different '\u2029' (by decide)]

/-- The pattern splits a printed buffer into its bytes. -/
theorem matchPairs_byteDigits (bytes : Bytes) :
    matchPairs (bytes.flatMap byteDigits) = bytes.map byteDigits := by
  induction bytes with
  | nil => rfl
  | cons byte bytes ih =>
      have bound := byte.toNat_lt
      have high : isLineTerminator (Nat.digitChar (byte.toNat / 16)) = false :=
        isLineTerminator_of_hexDigit (by rw [hexDigit_digitChar (by omega)]; rfl)
      have low : isLineTerminator (Nat.digitChar (byte.toNat % 16)) = false :=
        isLineTerminator_of_hexDigit (by rw [hexDigit_digitChar (by omega)]; rfl)
      rw [List.flatMap_cons, List.map_cons, ← ih]
      simp [byteDigits, matchPairs, high, low]

/-- The reversal of a printed buffer prints the reversed buffer. -/
theorem reverseHexString_toHex (bytes : Bytes) :
    reverseHexString bytes.toHex = .ok (Bytes.toHex bytes.reverse) := by
  have even : bytes.toHex.length % 2 = 0 := by
    rw [Bytes.toHex, String.length_ofList, length_flatMap_byteDigits]
    omega
  have pieces : (bytes.map byteDigits).reverse.flatten = bytes.reverse.flatMap byteDigits := by
    rw [← List.map_reverse, List.flatMap_def]
  rw [reverseHexString, if_neg (by omega), Bytes.toHex, String.toList_ofList, matchPairs_byteDigits,
    pieces, Bytes.toHex]

theorem swapEndianStrings_toHex {bytes swapped : Bytes} (defined : swap32 bytes = some swapped) :
    swapEndianStrings bytes.toHex = .ok swapped.toHex := by
  rw [swapEndianStrings, Bytes.ofHex_toHex, swapEndianWords, defined]
  rfl

/-- A hash of whole words has a notify line with its words in reverse order. -/
theorem response_of_hash (job : MiningJob) (template : JobTemplate) {hash : Bytes}
    (current : template.block.currentblockhash = hash.toHex) (words : 4 ∣ hash.length) :
    ∃ swapped, swap32 hash.reverse = some swapped ∧ job.response template = .ok (.notify {
      jobId := job.jobId
      prevHash := swapped.toHex
      coinbasePart1 := ""
      coinbasePart2 := ""
      merkleBranch := template.block.transactions
      version := hexText template.block.version
      bits := template.block.bits
      timestamp := hexText template.block.timestamp
      clearJobs := template.blockData.clearJobs }) := by
  have defined : (swap32 hash.reverse).isSome := by
    rw [isSome_swap32_iff, List.length_reverse]
    exact words
  obtain ⟨swapped, found⟩ := Option.isSome_iff_exists.mp defined
  refine ⟨swapped, found, ?_⟩
  rw [response, current, reverseHexString_toHex]
  change (swapEndianStrings (Bytes.toHex hash.reverse) >>= fun _ => _) = _
  rw [swapEndianStrings_toHex found]
  rfl

end MiningJob

end ComptoMiningPool
