import ComptoMiningPool.JavaScript.Lines
import ComptoMiningPool.JavaScript.Utf8
import ComptoMiningPool.JavaScript.Value

/-
This file models the data handler of a connection, which cuts a byte stream into lines. It proves when
the lines do not depend on how the stream arrives in chunks.
-/

namespace ComptoMiningPool

open JavaScript

def isNonempty (line : String) : Bool := 0 < line.length

/-- The handler decodes each chunk by itself and keeps the incomplete last line. -/
def receiveData (buffer : String) (data : Bytes) : String × List String :=
  let accumulatedData := buffer ++ String.ofList (Utf8.decode data)
  let lines := splitText '\n' accumulatedData
  (lines.getLastD "", lines.dropLast.filter isNonempty)

/-- The lines that the chunks of a stream hand to `handleMessage`. -/
def handledLines : String → List Bytes → List String
  | _, [] => []
  | buffer, data :: chunks =>
      (receiveData buffer data).2 ++ handledLines (receiveData buffer data).1 chunks

/-- The nonempty lines of the whole stream that a newline ends. -/
def streamLines (stream : Bytes) : List String :=
  (splitText '\n' (String.ofList (Utf8.decode stream))).dropLast.filter isNonempty

def newline : UInt8 := 0x0A

/-- No boundary between two chunks splits a unit of the decoding, as long as a newline follows. -/
def CutsBetweenUnits (chunks : List Bytes) : Prop :=
  ∀ before after, before ++ after = chunks → newline ∈ after.flatten →
    Utf8.splitsUnit before.flatten after.flatten = false

/-- The texts of the chunks, one after the other. -/
def decodeChunks (chunks : List Bytes) : List Char := chunks.flatMap Utf8.decode

section Lines

/-- The nonempty lines of a text that a newline ends. -/
def textLines (text : List Char) : List String :=
  ((Lines.complete '\n' text).filter (· ≠ [])).map String.ofList

theorem lines_eq (text : List Char) :
    (splitText '\n' (String.ofList text)).dropLast.filter isNonempty = textLines text := by
  have nonempty : (isNonempty ∘ String.ofList) = fun line : List Char => decide (line ≠ []) := by
    funext line
    cases line with
    | nil => rfl
    | cons c line => simp [isNonempty]
  rw [splitText, String.toList_ofList, ← List.map_dropLast, List.filter_map, nonempty]
  rfl

theorem streamLines_eq (stream : Bytes) : streamLines stream = textLines (Utf8.decode stream) :=
  lines_eq _

theorem receiveData_eq (buffer : List Char) (data : Bytes) :
    receiveData (String.ofList buffer) data =
      (String.ofList (Lines.remainder '\n' (buffer ++ Utf8.decode data)),
        textLines (buffer ++ Utf8.decode data)) := by
  rw [receiveData, ← String.ofList_append, lines_eq]
  have last : (splitText '\n' (String.ofList (buffer ++ Utf8.decode data))).getLastD "" =
      String.ofList (Lines.remainder '\n' (buffer ++ Utf8.decode data)) := by
    rw [splitText, String.toList_ofList, Lines.remainder, List.getLastD_eq_getLast?,
      List.getLast?_map, List.getLastD_eq_getLast?]
    cases ((buffer ++ Utf8.decode data).splitOn '\n').getLast? <;> rfl
  rw [last]

theorem textLines_append (before after : List Char) :
    textLines (before ++ after) =
      textLines before ++ textLines (Lines.remainder '\n' before ++ after) := by
  rw [textLines, Lines.complete_append, List.filter_append, List.map_append]
  rfl

/-- The handler finds the lines of the joined texts of its chunks. -/
theorem handledLines_eq (buffer : List Char) (chunks : List Bytes) (incomplete : '\n' ∉ buffer) :
    handledLines (String.ofList buffer) chunks = textLines (buffer ++ decodeChunks chunks) := by
  induction chunks generalizing buffer with
  | nil =>
      rw [handledLines, decodeChunks, List.flatMap_nil, List.append_nil, textLines,
        Lines.complete_of_not_mem incomplete]
      rfl
  | cons data chunks ih =>
      rw [handledLines, receiveData_eq, ih _ (Lines.not_mem_remainder _ _), ← textLines_append,
        List.append_assoc]
      rfl

theorem textLines_of_upToLast {first second : List Char}
    (same : Lines.upToLast '\n' first = Lines.upToLast '\n' second) : textLines first = textLines second := by
  rw [textLines, textLines, ← Lines.complete_upToLast, same, Lines.complete_upToLast]

end Lines

section Cuts

theorem newline_ascii : 0 < newline.toNat ∧ newline.toNat < 0x80 := by decide

theorem mem_decodeFrom_newline {state : Option Utf8.Pending} {bytes : Bytes} :
    '\n' ∈ Utf8.decodeFrom state bytes ↔ newline ∈ bytes :=
  Utf8.mem_decodeFrom_iff newline_ascii state bytes

theorem count_decode_newline (bytes : Bytes) : (Utf8.decode bytes).count '\n' = bytes.count newline :=
  Utf8.count_decodeFrom newline_ascii none bytes

theorem mem_decodeChunks_newline (chunks : List Bytes) :
    '\n' ∈ decodeChunks chunks ↔ newline ∈ chunks.flatten := by
  simp only [decodeChunks, List.mem_flatMap, List.mem_flatten]
  constructor
  · rintro ⟨data, member, present⟩
    exact ⟨data, member, mem_decodeFrom_newline.mp present⟩
  · rintro ⟨data, member, present⟩
    exact ⟨data, member, mem_decodeFrom_newline.mpr present⟩

theorem count_decodeChunks_newline (chunks : List Bytes) :
    (decodeChunks chunks).count '\n' = (Utf8.decode chunks.flatten).count '\n' := by
  rw [count_decode_newline]
  induction chunks with
  | nil => rfl
  | cons data chunks ih =>
      rw [decodeChunks, List.flatMap_cons, List.count_append, List.flatten_cons, List.count_append,
        count_decode_newline]
      exact congrArg _ ih

/-- The length of the decoded text through its last newline. -/
def reach (text : List Char) : ℕ := (Lines.upToLast '\n' text).length

theorem reach_append {before after : List Char} (present : '\n' ∈ after) :
    reach (before ++ after) = before.length + reach after := by
  rw [reach, Lines.upToLast_append_of_mem before present, List.length_append, reach]

/-- A sequence that the next byte continues gives fewer characters than its two parts do. -/
theorem reach_decodeFrom (pending : Utf8.Pending) {bytes : Bytes} (present : newline ∈ bytes) :
    reach (Utf8.decodeFrom (some pending) bytes) ≤ reach (Utf8.decode bytes) + 1 ∧
      (Utf8.continues (some pending) bytes = true →
        reach (Utf8.decodeFrom (some pending) bytes) ≤ reach (Utf8.decode bytes)) := by
  induction bytes generalizing pending with
  | nil => cases present
  | cons byte bytes ih =>
      cases continued : Utf8.continues (some pending) (byte :: bytes) with
      | false =>
          have broken : reach (Utf8.decodeFrom (some pending) (byte :: bytes)) =
              reach (Utf8.decode (byte :: bytes)) + 1 := by
            rw [Utf8.decodeFrom_of_not_continues continued, Utf8.decode,
              reach_append (mem_decodeFrom_newline.mpr present), Nat.add_comm]
            rfl
          rw [broken]
          refine ⟨Nat.le_refl _, ?_⟩
          intro impossible
          cases impossible
      | true =>
          have accepted : pending.Accepts byte := by simpa [Utf8.continues] using continued
          have range := pending.range
          have bounds := accepted
          unfold Utf8.Pending.Accepts at bounds
          have present : newline ∈ bytes := by
            rcases List.mem_cons.mp present with rfl | present
            · change pending.lower ≤ 10 ∧ _ at bounds
              omega
            · exact present
          have apart : reach (Utf8.decode (byte :: bytes)) = reach (Utf8.decode bytes) + 1 := by
            change reach ((Utf8.first byte).1 ++ Utf8.decodeFrom (Utf8.first byte).2 bytes) = _
            rw [Utf8.first_of_accepts accepted, reach_append (mem_decodeFrom_newline.mpr present),
              List.length_singleton, Nat.add_comm]
            rfl
          have joined : reach (Utf8.decodeFrom (some pending) (byte :: bytes)) ≤
              reach (Utf8.decode bytes) + 1 := by
            rw [Utf8.decodeFrom, Utf8.step, dif_pos accepted, Utf8.Pending.next]
            split
            · rw [reach_append (mem_decodeFrom_newline.mpr present), List.length_singleton,
                Nat.add_comm]
              exact Nat.le_refl _
            · exact (ih _ present).1
          rw [apart]
          exact ⟨Nat.le_succ_of_le joined, fun _ => joined⟩

/-- A cut between two units keeps the text, and any other cut before a newline lengthens it. -/
theorem reach_cut (before : Bytes) {after : Bytes} (present : newline ∈ after) :
    reach (Utf8.decode (before ++ after)) ≤ (Utf8.decode before).length + reach (Utf8.decode after) ∧
      (Utf8.splitsUnit before after = true → reach (Utf8.decode (before ++ after)) <
        (Utf8.decode before).length + reach (Utf8.decode after)) := by
  have present' : ∀ state, '\n' ∈ Utf8.decodeFrom state after :=
    fun state => mem_decodeFrom_newline.mpr present
  have whole : reach (Utf8.decode (before ++ after)) = (Utf8.emitted none before).length +
      reach (Utf8.decodeFrom (Utf8.stateAfter none before) after) := by
    rw [Utf8.decode, Utf8.decodeFrom_append, reach_append (present' _)]
  have first : (Utf8.decode before).length = (Utf8.emitted none before).length +
      (Utf8.finish (Utf8.stateAfter none before)).length := by
    rw [Utf8.decode, Utf8.decodeFrom_eq, List.length_append]
  rw [whole, first, Utf8.splitsUnit]
  cases Utf8.stateAfter none before with
  | none =>
      refine ⟨Nat.le_refl _, ?_⟩
      intro impossible
      cases impossible
  | some pending =>
      obtain ⟨longest, continued⟩ := reach_decodeFrom pending present
      simp only [Utf8.finish, List.length_singleton]
      refine ⟨by omega, ?_⟩
      intro splits
      have := continued splits
      omega

/-- Without a newline the rest of a stream reaches no line. -/
theorem reach_of_no_newline (before : List Char) {state : Option Utf8.Pending} {after : Bytes}
    (absent : newline ∉ after) :
    Lines.upToLast '\n' (before ++ Utf8.decodeFrom state after) = Lines.upToLast '\n' before := by
  apply Lines.upToLast_append_of_not_mem
  rw [mem_decodeFrom_newline]
  exact absent

/-- The first chunk decides by its own boundary and leaves the other boundaries to the rest. -/
theorem cutsBetweenUnits_cons (data : Bytes) (chunks : List Bytes) :
    CutsBetweenUnits (data :: chunks) ↔
      (newline ∈ chunks.flatten → Utf8.splitsUnit data chunks.flatten = false) ∧
        CutsBetweenUnits chunks := by
  have later : ∀ before after, before ++ after = chunks → newline ∈ after.flatten →
      (newline ∈ chunks.flatten → Utf8.splitsUnit data chunks.flatten = false) →
      Utf8.splitsUnit (data :: before).flatten after.flatten =
        Utf8.splitsUnit before.flatten after.flatten := by
    rintro before after rfl present whole
    rw [List.flatten_append] at whole
    exact Utf8.splitsUnit_append (whole (List.mem_append_right _ present))
  constructor
  · intro between
    have first : newline ∈ chunks.flatten → Utf8.splitsUnit data chunks.flatten = false := by
      intro present
      have cut := between [data] chunks rfl present
      rwa [List.flatten_singleton] at cut
    refine ⟨first, ?_⟩
    intro before after joined present
    rw [← later before after joined present first]
    exact between (data :: before) after (congrArg (List.cons data) joined) present
  · rintro ⟨first, between⟩ before after joined present
    cases before with
    | nil => exact Utf8.splitsUnit_nil _
    | cons data' before =>
        obtain ⟨rfl, rest⟩ := List.cons.inj joined
        rw [later before after rest present first]
        exact between before after rest present

/-- Cuts between units keep the text through its last newline, and any other cut lengthens it. -/
theorem decodeChunks_cuts (chunks : List Bytes) :
    (CutsBetweenUnits chunks → Lines.upToLast '\n' (decodeChunks chunks) =
        Lines.upToLast '\n' (Utf8.decode chunks.flatten)) ∧
      reach (Utf8.decode chunks.flatten) ≤ reach (decodeChunks chunks) ∧
      (¬ CutsBetweenUnits chunks →
        reach (Utf8.decode chunks.flatten) < reach (decodeChunks chunks)) := by
  induction chunks with
  | nil =>
      refine ⟨fun _ => rfl, Nat.le_refl _, ?_⟩
      intro split
      apply absurd _ split
      intro before after joined present
      rw [(List.append_eq_nil_iff.mp joined).2] at present
      cases present
  | cons data chunks ih =>
      obtain ⟨kept, longer, lengthened⟩ := ih
      rw [cutsBetweenUnits_cons]
      change (_ → Lines.upToLast '\n' (Utf8.decode data ++ decodeChunks chunks) = _) ∧
        _ ≤ reach (Utf8.decode data ++ decodeChunks chunks) ∧
          (_ → _ < reach (Utf8.decode data ++ decodeChunks chunks))
      rw [List.flatten_cons]
      by_cases present : newline ∈ chunks.flatten
      · have texts : '\n' ∈ decodeChunks chunks := (mem_decodeChunks_newline chunks).mpr present
        have whole' : '\n' ∈ Utf8.decode chunks.flatten := mem_decodeFrom_newline.mpr present
        obtain ⟨bound, strict⟩ := reach_cut data present
        rw [reach_append texts]
        refine ⟨?_, by omega, ?_⟩
        · rintro ⟨whole, between⟩
          rw [Lines.upToLast_append_of_mem _ texts, kept between,
            Utf8.decode_append_of_not_splits (whole present),
            Lines.upToLast_append_of_mem _ whole']
        · intro split
          cases cut : Utf8.splitsUnit data chunks.flatten with
          | true =>
              have := strict cut
              omega
          | false =>
              have := lengthened fun between => split ⟨fun _ => cut, between⟩
              omega
      · have texts : '\n' ∉ decodeChunks chunks := fun member =>
          present ((mem_decodeChunks_newline chunks).mp member)
        have same : Lines.upToLast '\n' (Utf8.decode data ++ decodeChunks chunks) =
            Lines.upToLast '\n' (Utf8.decode (data ++ chunks.flatten)) := by
          have unfinished : '\n' ∉ Utf8.finish (Utf8.stateAfter none data) := by
            cases Utf8.stateAfter none data with
            | none => exact List.not_mem_nil
            | some pending =>
                show '\n' ∉ [Utf8.replacement]
                decide
          rw [Lines.upToLast_append_of_not_mem _ texts, Utf8.decode, Utf8.decode,
            Utf8.decodeFrom_append, reach_of_no_newline _ present, Utf8.decodeFrom_eq,
            Lines.upToLast_append_of_not_mem _ unfinished]
        have between : CutsBetweenUnits chunks := by
          rintro before after rfl inside
          rw [List.flatten_append] at present
          exact absurd (List.mem_append_right _ inside) present
        refine ⟨fun _ => same, ?_, ?_⟩
        · rw [reach, reach, same]
        · intro split
          exact absurd ⟨fun inside => absurd inside present, between⟩ split

end Cuts

/-- The handled lines are the lines of the whole stream if and only if no boundary before a newline
splits a unit of the decoding. -/
theorem handledLines_eq_streamLines_iff (chunks : List Bytes) :
    handledLines "" chunks = streamLines chunks.flatten ↔ CutsBetweenUnits chunks := by
  obtain ⟨kept, _, lengthened⟩ := decodeChunks_cuts chunks
  have handled : handledLines "" chunks = textLines (decodeChunks chunks) :=
    handledLines_eq [] chunks List.not_mem_nil
  rw [handled, streamLines_eq]
  constructor
  · intro same
    by_contra split
    have pieces := (List.map_injective_iff.mpr fun _ _ equal => String.ofList_injective equal) same
    have reached := Lines.length_upToLast_eq pieces (count_decodeChunks_newline chunks)
    have := lengthened split
    rw [reach, reach] at this
    omega
  · intro between
    exact textLines_of_upToLast (kept between)

/-- The two bytes of one character arrive apart, and the handled line has two other characters. -/
theorem handledLines_split_character :
    handledLines "" [[0xC3], [0xA9, 0x0A]] ≠ streamLines [0xC3, 0xA9, 0x0A] := by
  decide

end ComptoMiningPool
