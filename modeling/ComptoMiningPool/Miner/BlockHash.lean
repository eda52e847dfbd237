import ComptoMiningPool.Miner.Agreement

/-
This file follows a block hash from its template to the client. It proves that the notify line reverses
the words of the hash and that the client restores them.
-/

namespace ComptoMiningPool

open JavaScript StratumClient

namespace MiningJob

/-- A notify line carries the words of the block hash in this order. -/
def naturalOrder (blockhash : String) : Except Thrown String :=
  reverseHexString blockhash >>= swapEndianStrings

/-- The line of a job carries the block hash of its template in natural order. -/
theorem response_eq (job : MiningJob) (template : JobTemplate) :
    job.response template = (naturalOrder template.block.currentblockhash).map fun natural => .notify {
      jobId := job.jobId
      prevHash := natural
      coinbasePart1 := ""
      coinbasePart2 := ""
      merkleBranch := template.block.transactions
      version := hexText template.block.version
      bits := template.block.bits
      timestamp := hexText template.block.timestamp
      clearJobs := template.blockData.clearJobs } := by
  rw [response, naturalOrder]
  cases reverseHexString template.block.currentblockhash with
  | error thrown => rfl
  | ok reversed =>
      change (swapEndianStrings reversed >>= fun _ => _) = (swapEndianStrings reversed).map _
      cases swapEndianStrings reversed <;> rfl

/-- A buffer of whole words is the list of its words. -/
theorem exists_words (bytes : Bytes) (whole : 4 ∣ bytes.length) :
    ∃ words : List Bytes, words.flatten = bytes ∧ ∀ word ∈ words, word.length = 4 := by
  induction bytes using swap32.induct with
  | case1 => exact ⟨[], rfl, by simp⟩
  | case2 a b c d rest ih =>
      obtain ⟨words, rfl, length⟩ := ih (by simp only [List.length_cons] at whole; omega)
      exact ⟨[a, b, c, d] :: words, rfl, List.forall_mem_cons.mpr ⟨rfl, length⟩⟩
  | case3 bytes nonempty short =>
      have none : swap32 bytes = none := by
        rw [swap32]
        · exact nonempty
        · exact short
      have defined := (isSome_swap32_iff bytes).mpr whole
      rw [none] at defined
      cases defined

/-- The swap reverses each word. -/
theorem swap32_flatten {words : List Bytes} (length : ∀ word ∈ words, word.length = 4) :
    swap32 words.flatten = some (words.map List.reverse).flatten := by
  induction words with
  | nil => rfl
  | cons word words ih =>
      obtain ⟨four, rest⟩ := List.forall_mem_cons.mp length
      obtain ⟨a, b, c, d, rfl⟩ := List.length_eq_four.mp four
      simp only [List.flatten_cons, List.cons_append, List.nil_append, swap32, ih rest, Option.map_some,
        List.map_cons, List.reverse_cons, List.reverse_nil]

/-- The swap of a reversed buffer reverses its words only. -/
theorem swap32_reverse_flatten {words : List Bytes} (length : ∀ word ∈ words, word.length = 4) :
    swap32 words.flatten.reverse = some words.reverse.flatten := by
  rw [swap32_reverse (swap32_flatten length), List.reverse_flatten, List.map_map]
  simp

theorem naturalOrder_toHex {bytes swapped : Bytes} (defined : swap32 bytes.reverse = some swapped) :
    naturalOrder bytes.toHex = .ok swapped.toHex := by
  rw [naturalOrder, reverseHexString_toHex]
  exact swapEndianStrings_toHex defined

/-- The words of a hash are sent in reverse order, each with its own bytes. -/
theorem naturalOrder_words {words : List Bytes} (length : ∀ word ∈ words, word.length = 4) :
    naturalOrder (Bytes.toHex words.flatten) = .ok (Bytes.toHex words.reverse.flatten) :=
  naturalOrder_toHex (swap32_reverse_flatten length)

/-- The pattern splits a text of digits into pairs and loses none. -/
theorem flatten_matchPairs {count : ℕ} {text : List Char} (length : text.length = 2 * count)
    (digits : ∀ c ∈ text, (hexDigit c).isSome) : (matchPairs text).flatten = text := by
  induction count generalizing text with
  | zero =>
      obtain rfl := List.length_eq_zero_iff.mp length
      rfl
  | succ count ih =>
      obtain ⟨first, text, rfl⟩ := List.exists_of_length_succ text length
      obtain ⟨second, rest, rfl⟩ := List.exists_of_length_succ text (Nat.succ.inj length)
      obtain ⟨high, digits⟩ := List.forall_mem_cons.mp digits
      obtain ⟨low, digits⟩ := List.forall_mem_cons.mp digits
      have tail := ih (by simp only [List.length_cons] at length; omega) digits
      simp [matchPairs, isLineTerminator_of_hexDigit high, isLineTerminator_of_hexDigit low, tail]

theorem reverseHexString_hexDigits {count : ℕ} {text : String} (digits : HexDigits (2 * count) text) :
    ∃ reversed, reverseHexString text = .ok reversed ∧ HexDigits (2 * count) reversed := by
  have same : ((matchPairs text.toList).reverse.flatten).Perm text.toList := by
    have pairs := (List.reverse_perm (matchPairs text.toList)).flatten
    rwa [flatten_matchPairs digits.1 digits.2] at pairs
  have even : text.length % 2 = 0 := by
    rw [← String.length_toList, digits.1]
    omega
  refine ⟨_, by rw [reverseHexString, if_neg (by omega)], ?_⟩
  rw [HexDigits, String.toList_ofList]
  refine ⟨same.length_eq.trans digits.1, ?_⟩
  intro c member
  exact digits.2 c (same.mem_iff.mp member)

/-- A text whose digits are no whole words has no natural order. -/
theorem naturalOrder_throws {count : ℕ} {text : String} (digits : HexDigits count text)
    (broken : ¬ 8 ∣ count) : ∃ thrown, naturalOrder text = .error thrown := by
  have length : text.length = count := by rw [← String.length_toList, digits.1]
  rcases Nat.even_or_odd' count with ⟨half, rfl | rfl⟩
  · obtain ⟨reversed, reverses, digits'⟩ := reverseHexString_hexDigits digits
    have undefined : swap32 (Bytes.ofHex reversed) = none := by
      rw [← Option.not_isSome_iff_eq_none, isSome_swap32_iff, (Bytes.denotes_ofHex digits').1]
      omega
    refine ⟨.error "Buffer size must be a multiple of 32-bits", ?_⟩
    rw [naturalOrder, reverses]
    change swapEndianStrings reversed = _
    rw [swapEndianStrings, swapEndianWords, undefined]
    rfl
  · refine ⟨.error "Invalid hex string length", ?_⟩
    rw [naturalOrder, reverseHexString, if_pos (by omega)]
    rfl

end MiningJob

/-- The line of a hash of whole words carries its words in reverse order. The transform undoes itself, the
client restores the hash, and a text without whole words throws. -/
theorem naturalOrder_exact :
    (∀ hash : Bytes, 4 ∣ hash.length → ∃ words : List Bytes, words.flatten = hash ∧
      (∀ word ∈ words, word.length = 4) ∧
      let natural := Bytes.toHex words.reverse.flatten
      MiningJob.naturalOrder hash.toHex = .ok natural ∧ MiningJob.naturalOrder natural = .ok hash.toHex ∧
        swapWords (Bytes.ofHex natural.toLower).reverse = .ok hash) ∧
    ∀ (count : ℕ) (text : String), HexDigits count text → ¬ 8 ∣ count →
      ∃ thrown, MiningJob.naturalOrder text = .error thrown := by
  constructor
  · intro hash whole
    obtain ⟨words, rfl, length⟩ := MiningJob.exists_words hash whole
    refine ⟨words, rfl, length, MiningJob.naturalOrder_words length, ?_, ?_⟩
    · have back := @MiningJob.naturalOrder_words words.reverse fun word member =>
        length word (List.mem_reverse.mp member)
      rwa [List.reverse_reverse] at back
    · exact swapWords_notified (MiningJob.swap32_reverse_flatten length)
  · intro count text digits broken
    exact MiningJob.naturalOrder_throws digits broken

end ComptoMiningPool
