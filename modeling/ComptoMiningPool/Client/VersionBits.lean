import ComptoMiningPool.Client.Startup
import ComptoMiningPool.Client.SubmissionRun
import ComptoMiningPool.Client.SubmitFields

/-
This file follows a requested rolling mask from its text to the versions of the proofs.
-/

namespace ComptoMiningPool

open JavaScript Async

section Texts

/-- The base-16 digits that `isHexadecimal` reads, without their marker. -/
def unmarkedDigits (text : String) : List Char :=
  match text.toList with
  | '0' :: marker :: rest => if marker ∈ ['x', 'X', 'h', 'H'] then rest else text.toList
  | characters => characters

/-- The number that the digits after the marker denote. -/
def unmarkedNumber (text : String) : ℕ := hexValue (hexPrefix (unmarkedDigits text))

/-- The marker is one that `isHexadecimal` reads and `parseInt` does not. -/
def HasForeignMarker (text : String) : Prop :=
  ∃ marker ∈ ['h', 'H'], ∃ rest, text.toList = '0' :: marker :: rest

theorem isHexadecimal_iff {text : String} : isHexadecimal text = true ↔
    unmarkedDigits text ≠ [] ∧ ∀ c ∈ unmarkedDigits text, (hexDigit c).isSome := by
  show (!(unmarkedDigits text).isEmpty && (unmarkedDigits text).all fun c => (hexDigit c).isSome) = true ↔ _
  rw [Bool.and_eq_true, Bool.not_eq_true', List.isEmpty_eq_false_iff, List.all_eq_true]

/-- A text has a marker that both readers know, a marker that only the validator knows, or no marker. -/
theorem unmarkedDigits_cases (text : String) :
    (∃ marker ∈ ['x', 'X'], text.toList = '0' :: marker :: unmarkedDigits text) ∨
      (∃ marker ∈ ['h', 'H'], text.toList = '0' :: marker :: unmarkedDigits text) ∨
      text.toList = unmarkedDigits text := by
  unfold unmarkedDigits
  split
  · rename_i marker rest whole
    split
    · rename_i known
      have split : ['x', 'X', 'h', 'H'] = ['x', 'X'] ++ ['h', 'H'] := rfl
      rw [split, List.mem_append] at known
      rcases known with shared | foreign
      · exact .inl ⟨marker, shared, whole⟩
      · exact .inr (.inl ⟨marker, foreign, whole⟩)
    · exact .inr (.inr rfl)
  · exact .inr (.inr rfl)

/-- Behind a foreign marker only the leading zero is read. -/
theorem parseHex_of_foreign {text : String} (foreign : HasForeignMarker text) : parseHex text = .ofNat 0 := by
  obtain ⟨marker, known, rest, whole⟩ := foreign
  have stops : hexPrefix (dropHexMarker ('0' :: marker :: rest)) = [0] := by
    rcases List.mem_pair.mp known with rfl | rfl
    · rfl
    · rfl
  have parsed := parseHex_of_first (by decide) stops
  rw [← whole, String.ofList_toList] at parsed
  rw [parsed]
  exact Number.ofRat_natCast (by decide)

/-- A shared marker is skipped. -/
theorem parseHex_of_shared {text : String} {marker : Char} (shared : marker ∈ ['x', 'X'])
    (whole : text.toList = '0' :: marker :: unmarkedDigits text) (nonempty : unmarkedDigits text ≠ [])
    (digits : ∀ c ∈ unmarkedDigits text, (hexDigit c).isSome) : parseHex text = .ofRat (unmarkedNumber text) := by
  have skipped : dropHexMarker ('0' :: marker :: unmarkedDigits text) = unmarkedDigits text := by
    rcases List.mem_pair.mp shared with rfl | rfl
    · rfl
    · rfl
  obtain ⟨c, rest, split⟩ := List.exists_cons_of_ne_nil nonempty
  have first := digits c (by rw [split]; exact List.mem_cons_self)
  obtain ⟨digit, others, found⟩ := @exists_hexPrefix c rest first
  rw [← split] at found
  have parsed := parseHex_of_first (by decide : (hexDigit '0').isSome) ((congrArg hexPrefix skipped).trans found)
  rw [← whole, String.ofList_toList] at parsed
  rw [parsed, unmarkedNumber, found]

/-- Digits that no foreign marker hides parse to their number. -/
theorem parseHex_of_unmarked {text : String} (hexadecimal : isHexadecimal text = true)
    (read : ¬ HasForeignMarker text) : parseHex text = .ofRat (unmarkedNumber text) := by
  obtain ⟨nonempty, digits⟩ := isHexadecimal_iff.mp hexadecimal
  rcases unmarkedDigits_cases text with ⟨marker, shared, whole⟩ | ⟨marker, foreign, whole⟩ | plain
  · exact parseHex_of_shared shared whole nonempty digits
  · exact absurd ⟨marker, foreign, _, whole⟩ read
  · have parsed := parseHex_ofList nonempty digits
    rw [← plain, String.ofList_toList] at parsed
    rw [parsed, unmarkedNumber, ← plain]

/-- Up to thirteen digits that no foreign marker hides have the word of their number. -/
theorem toInt32_of_unmarked {text : String} (hexadecimal : isHexadecimal text = true)
    (read : ¬ HasForeignMarker text) (short : (unmarkedDigits text).length ≤ 13) :
    (parseHex text).toInt32 = BitVec.ofNat 32 (unmarkedNumber text) := by
  have small : unmarkedNumber text ≤ 2 ^ 53 :=
    calc unmarkedNumber text ≤ 16 ^ (unmarkedDigits text).length := (hexValue_lt _).le
      _ ≤ 16 ^ 13 := Nat.pow_le_pow_right (by norm_num) short
      _ ≤ 2 ^ 53 := by norm_num
  rw [parseHex_of_unmarked hexadecimal read, Number.ofRat_natCast small, Number.toInt32_ofNat]

end Texts

/-- A rolling mask is a small number. -/
theorem toNat_lt_of_contained {word : BitVec 32} (contained : word &&& 0x1fffe000#32 = word) :
    word.toNat < 2 ^ 29 := by
  calc word.toNat = (word &&& 0x1fffe000#32).toNat := by rw [contained]
    _ = word.toNat &&& 0x1fffe000 := BitVec.toNat_and ..
    _ ≤ 0x1fffe000 := Nat.and_le_right
    _ < 2 ^ 29 := by norm_num

namespace ConfigurationMessage

/-- The mask that a configure message requests. A missing mask requests every bit. -/
def requestedMask (fields : Fields) : Except Thrown Value := do
  let options ← Value.index (fields.lookup "params") 1
  orDefault (.string "ffffffff") <$> Value.field options "version-rolling.mask"

theorem exists_text_of_isString {value : Value} (isText : value.isString = true) :
    ∃ text, value = some (.string text) := by
  unfold Value.isString at isText
  split at isText
  · exact ⟨_, rfl⟩
  · cases isText

/-- The stored mask of a rolling message is cut out of a hexadecimal text that the message requests. -/
theorem decode_rolling {fields : Fields} {configuration : ConfigurationMessage}
    (decodes : decode fields = .ok (.valid configuration)) (rolling : configuration.versionRolling = true) :
    ∃ text, requestedMask fields = .ok (some (.string text)) ∧ isHexadecimal text = true ∧
      configuration.versionRollingMask = .ofNumber (parseHex text) := by
  unfold decode at decodes
  obtain ⟨first, indexed, decodes⟩ := exists_ok_of_bind decodes
  obtain ⟨extensions, listed, decodes⟩ := exists_ok_of_bind decodes
  obtain ⟨options, optioned, decodes⟩ := exists_ok_of_bind decodes
  cases rolls : extensions.any isVersionRolling with
  | false =>
      simp only [rolls, Bool.false_eq_true, if_false] at decodes
      obtain ⟨_, rfl⟩ := validated_valid_iff.mp (Except.ok.inj decodes)
      cases rolling
  | true =>
      simp only [rolls, if_true] at decodes
      obtain ⟨mask, masked, decodes⟩ := exists_ok_of_bind decodes
      obtain ⟨minBitCount, _, decodes⟩ := exists_ok_of_bind decodes
      obtain ⟨passed, rfl⟩ := validated_valid_iff.mp (Except.ok.inj decodes)
      have verdict := passes_of_accepted passed
        (List.mem_cons_of_mem _ (List.mem_cons_of_mem _ (List.mem_cons_of_mem _ List.mem_cons_self)))
      have checked : mask.isString = true ∧ isHexadecimal mask.text = true := by
        simpa using verdict
      have requested : requestedMask fields = .ok mask := by
        unfold requestedMask
        rw [optioned]
        exact masked
      obtain ⟨text, rfl⟩ := exists_text_of_isString checked.1
      exact ⟨text, requested, checked.2, rfl⟩

/-- The stored mask stays inside the bits that a miner may roll. It equals the requested mask on these bits
when that mask has at most eight digits, and the announced digits parse back to it. -/
structure NegotiatesMask (configuration : ConfigurationMessage) (fields : Fields) : Prop where
  contained : configuration.versionRollingMask.word &&& 0x1fffe000#32 = configuration.versionRollingMask.word
  requested : ∀ text, requestedMask fields = .ok (some (.string text)) → (unmarkedDigits text).length ≤ 8 →
    configuration.versionRollingMask.word = BitVec.ofNat 32 (unmarkedNumber text) &&& 0x1fffe000#32
  announced : ∃ text, configuration.response = .response configuration.id (.object
      [("version-rolling", .bool true), ("version-rolling.mask", .string text)]) ∧
    parseHex text = .ofInt32 configuration.versionRollingMask.word

/-- The requested mask has a bit to roll behind a marker that hides it from `parseInt`. -/
def LosesMask (fields : Fields) : Prop :=
  ∃ text, requestedMask fields = .ok (some (.string text)) ∧ HasForeignMarker text ∧
    (unmarkedDigits text).length ≤ 8 ∧ BitVec.ofNat 32 (unmarkedNumber text) &&& 0x1fffe000#32 ≠ 0

/-- The announced mask parses back. -/
theorem response_announces {configuration : ConfigurationMessage} (rolling : configuration.versionRolling = true) :
    ∃ text, configuration.response = .response configuration.id (.object
        [("version-rolling", .bool true), ("version-rolling.mask", .string text)]) ∧
      parseHex text = .ofInt32 configuration.versionRollingMask.word := by
  have small := toNat_lt_of_contained configuration.versionRollingMask.contained
  refine ⟨hexText configuration.versionRollingMask.word.toNat, ?_, ?_⟩
  · rw [response, rolling, if_pos rfl]
  · rw [parseHex_hexText (by omega), Number.ofInt32_of_lt (by omega)]

/-- A valid rolling message negotiates its mask unless a foreign marker hides a bit of it. -/
theorem negotiatesMask_iff {fields : Fields} {configuration : ConfigurationMessage}
    (decodes : decode fields = .ok (.valid configuration)) (rolling : configuration.versionRolling = true) :
    configuration.NegotiatesMask fields ↔ ¬ LosesMask fields := by
  obtain ⟨text, asked, hexadecimal, cut⟩ := decode_rolling decodes rolling
  have word : configuration.versionRollingMask.word = (parseHex text).toInt32 &&& 0x1fffe000#32 := by
    rw [cut, RollingMask.ofNumber]
  constructor
  · rintro negotiates ⟨other, asked', foreign, short, some⟩
    apply some
    rw [← negotiates.requested other asked' short, word]
    obtain rfl := Json.string.inj (Option.some.inj (Except.ok.inj (asked.symm.trans asked')))
    rw [parseHex_of_foreign foreign, Number.toInt32_ofNat]
    decide
  · intro keeps
    refine ⟨configuration.versionRollingMask.contained, ?_, response_announces rolling⟩
    intro other asked' short
    obtain rfl := Json.string.inj (Option.some.inj (Except.ok.inj (asked.symm.trans asked')))
    by_cases foreign : HasForeignMarker text
    · have nothing : BitVec.ofNat 32 (unmarkedNumber text) &&& 0x1fffe000#32 = 0 := by
        by_contra some
        exact keeps ⟨text, asked, foreign, short, some⟩
      rw [nothing, word, parseHex_of_foreign foreign, Number.toInt32_ofNat]
      decide
    · rw [word, toInt32_of_unmarked hexadecimal foreign (by omega)]

end ConfigurationMessage

/-- The rolled version is a number below `2 ^ 31` that agrees with the version of the template outside the
mask, and the version bits stay inside the mask. -/
structure RollsVersion (configuration : ConfigurationMessage) (message : MiningSubmitMessage)
    (version : Number) : Prop where
  bounded : ∃ value < 2 ^ 31, version = .ofNat value
  agrees : version.toInt32 &&& ~~~configuration.versionRollingMask.word =
    0x20000000#32 &&& ~~~configuration.versionRollingMask.word
  inside : (parseHex message.versionMask.text).toInt32 &&& ~~~configuration.versionRollingMask.word = 0

/-- Bits inside a mask are joined to a small number that changes nowhere else. -/
theorem or_of_contained {bits : Number} (mask : RollingMask) (inside : bits.toInt32 &&& ~~~mask.word = 0) :
    (∃ value < 2 ^ 31, Number.or (.ofNat 0x20000000) bits = .ofNat value) ∧
      (Number.or (.ofNat 0x20000000) bits).toInt32 &&& ~~~mask.word = 0x20000000#32 &&& ~~~mask.word := by
  have joined := and_rolling_of_contained mask inside
  have small : bits.toInt32.toNat < 2 ^ 29 := by
    apply toNat_lt_of_contained
    conv_lhs => rw [← joined]
    rw [BitVec.and_assoc, BitVec.and_self, joined]
  have bounded : (0x20000000#32 ||| bits.toInt32).toNat < 2 ^ 31 := by
    rw [BitVec.toNat_or]
    exact Nat.or_lt_two_pow (by decide) (by omega)
  constructor
  · refine ⟨_, bounded, ?_⟩
    rw [Number.or, Number.toInt32_ofNat]
    exact Number.ofInt32_of_lt bounded
  · rw [Number.or, Number.toInt32_ofInt32, Number.toInt32_ofNat, BitVec.and_or_distrib_right, inside]
    exact BitVec.or_zero

/-- Version bits inside the mask roll a version of a block template. -/
theorem rollsVersion_of_contained {configuration : ConfigurationMessage} {message : MiningSubmitMessage}
    (contained : ¬ MaskExceeded configuration message) : RollsVersion configuration message
      (Number.or (.ofNat 0x20000000) (parseHex message.versionMask.text)) := by
  rw [MaskExceeded, not_not] at contained
  obtain ⟨bounded, agrees⟩ := or_of_contained configuration.versionRollingMask contained
  exact ⟨bounded, agrees, contained⟩

/-- Each negotiated mask of a connection comes from one of its configure messages, and each proof rolls the
version of its block inside the mask that the connection holds. -/
structure KeepsVersionBits (system : System ClientState ClientAnswer Thrown Unit ClientTask) : Prop where
  negotiated : ∀ me fields configuration,
    (me, .answered (.validateConfiguration fields) (.ok (.valid configuration))) ∈ system.trace →
      configuration.versionRolling = true → configuration.NegotiatesMask fields
  stored : ∀ configuration, system.state.clientConfiguration = some configuration → ∃ me fields,
    (me, .answered (.validateConfiguration fields) (.ok (.valid configuration))) ∈ system.trace
  rolled : ∀ me submission earlier configuration,
    system.trace = (me, .issued (.submitProof submission)) :: earlier →
    system.state.clientConfiguration = some configuration → configuration.versionRolling = true →
      ∃ sources : ProofSources, submitProgress me earlier = sources.progress ∧
        (sources.template.block.version = 0x20000000 →
          RollsVersion configuration sources.message submission.version)

section Runs

variable {sha256 : Bytes → Bytes} {isPublicKey : String → Bool}
  {system : System ClientState ClientAnswer Thrown Unit ClientTask}

/-- A configuration that a reachable connection validated was decoded from its message. -/
theorem decoded_of_validated (reached : Reachable (clientSemantics sha256 (stratumDecoder isPublicKey)) {} system)
    {me : ℕ} {fields : Fields} {configuration : ConfigurationMessage}
    (member : (me, .answered (.validateConfiguration fields) (.ok (.valid configuration))) ∈ system.trace) :
    ConfigurationMessage.decode fields = .ok (.valid configuration) := by
  obtain ⟨_, _, _, admitted⟩ := reached.admitted.of_mem member
  exact admitted.symm

/-- A proof under a rolling configuration rolls the version of its template. -/
theorem rollsVersion_of_reachable
    (reached : Reachable (clientSemantics sha256 (stratumDecoder isPublicKey)) {} system) {me : ℕ}
    {submission : Submission} {earlier : ClientTrace} {configuration : ConfigurationMessage}
    (newest : system.trace = (me, .issued (.submitProof submission)) :: earlier)
    (configured : system.state.clientConfiguration = some configuration)
    (rolling : configuration.versionRolling = true) :
    ∃ sources : ProofSources, submitProgress me earlier = sources.progress ∧
      (sources.template.block.version = 0x20000000 →
        RollsVersion configuration sources.message submission.version) := by
  have rolled := ((submissionContract_proved sha256 (stratumDecoder isPublicKey)).reachable reached).1.rolled
  rw [newest] at rolled
  obtain ⟨sources, progressed, versions⟩ := rolled
  unfold ProofSources.Versions at versions
  simp only [configured, rolling, if_true] at versions
  refine ⟨sources, ?_, ?_⟩
  · rw [← progressed, submitProgress_cons]
    rfl
  · intro plain
    rw [versions.2, plain]
    exact rollsVersion_of_contained versions.1

/-- A connection keeps its version bits exactly when no configure message of its run writes rolling bits
behind a marker that `parseInt` does not read. -/
theorem keepsVersionBits_iff (reached : Reachable (clientSemantics sha256 (stratumDecoder isPublicKey)) {} system) :
    KeepsVersionBits system ↔ ∀ me fields configuration,
      (me, .answered (.validateConfiguration fields) (.ok (.valid configuration))) ∈ system.trace →
        configuration.versionRolling = true → ¬ ConfigurationMessage.LosesMask fields := by
  have negotiated : ∀ me fields configuration,
      (me, .answered (.validateConfiguration fields) (.ok (.valid configuration))) ∈ system.trace →
        configuration.versionRolling = true →
          (configuration.NegotiatesMask fields ↔ ¬ ConfigurationMessage.LosesMask fields) :=
    fun me fields configuration member rolling =>
      ConfigurationMessage.negotiatesMask_iff (decoded_of_validated reached member) rolling
  constructor
  · intro keeps me fields configuration member rolling
    exact (negotiated me fields configuration member rolling).mp
      (keeps.negotiated me fields configuration member rolling)
  · intro plain
    have kept := ((submissionContract_proved sha256 (stratumDecoder isPublicKey)).reachable reached).1
    refine ⟨?_, kept.core.configured, ?_⟩
    · intro me fields configuration member rolling
      exact (negotiated me fields configuration member rolling).mpr (plain me fields configuration member rolling)
    · intro me submission earlier configuration newest configured rolling
      exact rollsVersion_of_reachable reached newest configured rolling

end Runs

/-- The event validates no configuration but one that requests the plain mask. -/
def ClientEvent.requestsPlainMask : ClientEvent → Bool
  | .answered (.validateConfiguration fields) _ => match ConfigurationMessage.requestedMask fields with
      | .ok (some (.string text)) => text == "1fffe000"
      | _ => false
  | _ => true

/-- A session that requests a plain mask and rolls a bit of it keeps its version bits. -/
theorem keepsVersionBits_session : KeepsVersionBits sessionSystem := by
  have asked : ∀ pair ∈ sessionSystem.trace, ClientEvent.requestsPlainMask pair.2 = true := by
    decide +kernel
  apply (keepsVersionBits_iff sessionSystem_reachable).mpr
  rintro me fields configuration member _ ⟨text, requested, ⟨marker, _, rest, marked⟩, _⟩
  have plain := asked _ member
  simp only [ClientEvent.requestsPlainMask, requested, beq_iff_eq] at plain
  subst plain
  cases marked

/-- A connection that configures a mask behind the marker `0h`. -/
def markedSystem : System ClientState ClientAnswer Thrown Unit ClientTask :=
  System.after (clientSemantics id (stratumDecoder fun _ => true)) acceptingOutcomes.environment ⟨{}, [], []⟩
    (requestTask 1 .configure [.array [.string "version-rolling"],
      .object [("version-rolling.mask", .string "0h1fffe000")]])

theorem markedSystem_reachable :
    Reachable (clientSemantics id (stratumDecoder fun _ => true)) {} markedSystem := by
  have quiet : ∀ pair ∈ markedSystem.trace, pair.2.Asks fun call => call.awaitsPromise = false := by
    decide +kernel
  exact Reachable.after acceptingOutcomes.admitted .refl trivial quiet

/-- The event validates a configuration that requests a marked mask and holds zero. -/
def ClientEvent.clearsMarkedMask : ClientEvent → Bool
  | .answered (.validateConfiguration fields) (.ok (.valid configuration)) =>
      configuration.versionRolling && configuration.versionRollingMask.word == 0 &&
        match ConfigurationMessage.requestedMask fields with
        | .ok (some (.string text)) => text == "0h1fffe000"
        | _ => false
  | _ => false

/-- A mask behind the marker `0h` passes the validation and is stored as zero. -/
theorem marked_mask_lost : Reachable (clientSemantics id (stratumDecoder fun _ => true)) {} markedSystem ∧
    ¬ KeepsVersionBits markedSystem := by
  refine ⟨markedSystem_reachable, ?_⟩
  intro keeps
  have lost : ∃ pair ∈ markedSystem.trace, ClientEvent.clearsMarkedMask pair.2 = true := by
    decide +kernel
  obtain ⟨⟨me, event⟩, member, found⟩ := lost
  unfold ClientEvent.clearsMarkedMask at found
  dsimp only at found
  split at found
  · rename_i fields configuration
    rw [Bool.and_eq_true, Bool.and_eq_true] at found
    obtain ⟨⟨rolling, cleared⟩, asked⟩ := found
    split at asked
    · rename_i text requested
      obtain rfl := eq_of_beq asked
      have word := (keeps.negotiated me fields configuration member rolling).requested _ requested (by decide)
      rw [eq_of_beq cleared] at word
      exact absurd word (by decide)
    · cases asked
  · cases found

end ComptoMiningPool
