import ComptoMiningPool.Jobs.Template

/-
This file models the store of jobs and templates and proves what its histories keep.
-/

namespace ComptoMiningPool

open JavaScript

/-- The fields of the jobs service. The stream updates the first two and the templates. -/
structure JobsService where
  lastIntervalCount : Option ℤ := none
  skipNext : Bool := false
  latestJobId : ℕ := 1
  latestJobTemplateId : ℕ := 1
  jobs : Dictionary MiningJob := .empty
  blocks : Dictionary JobTemplate := .empty

/-- The mantissa and the exponent of the compressed target give the difficulty. -/
def calculateNetworkDifficulty (nBits : Number) : Number :=
  let mantissa := (nBits.toInt32 &&& 0x007fffff#32).toNat
  let exponent := ((nBits.toInt32.sshiftRight 24) &&& 0xff#32).toNat
  let target := Number.mul (.ofNat mantissa) (.ofRat ((256 : ℚ) ^ ((exponent : ℤ) - 3)))
  Number.div (.ofRat (2 ^ 208 * 65535)) target

namespace JobsService

def getNextTemplateId (service : JobsService) : String × JobsService :=
  (hexText (service.latestJobTemplateId + 1),
    { service with latestJobTemplateId := service.latestJobTemplateId + 1 })

def getNextId (service : JobsService) : String × JobsService :=
  (hexText (service.latestJobId + 1), { service with latestJobId := service.latestJobId + 1 })

/-- A new template takes the next template id. -/
def newTemplate (service : JobsService) (block : BlockTemplate) (clearJobs : Bool) :
    JobsService × JobTemplate :=
  let (id, service) := service.getNextTemplateId
  (service, {
    block := block
    blockData := {
      id := id
      networkDifficulty := calculateNetworkDifficulty (parseHex block.bits)
      clearJobs := clearJobs } })

/-- A clearing template empties both dictionaries before it is stored. -/
def storeTemplate (service : JobsService) (template : JobTemplate) : JobsService :=
  let service := if template.blockData.clearJobs
    then { service with blocks := .empty, jobs := .empty } else service
  { service with blocks := service.blocks.insert template.blockData.id template }

def emitTemplate (service : JobsService) (block : BlockTemplate) (clearJobs : Bool) :
    JobsService × JobTemplate :=
  let (service, template) := service.newTemplate block clearJobs
  (service.storeTemplate template, template)

def addJob (service : JobsService) (template : JobTemplate) : JobsService × MiningJob :=
  let (jobId, service) := service.getNextId
  let job := MiningJob.ofTemplate jobId template
  ({ service with jobs := service.jobs.insert job.jobId job }, job)

def getJobById (service : JobsService) (jobId : String) : Option (Entry MiningJob) :=
  service.jobs.read jobId

/-- A missing template id is looked up under the text `undefined`. -/
def getJobTemplateById (service : JobsService) (jobTemplateId : Option String) :
    Option (Entry JobTemplate) :=
  service.blocks.read (jobTemplateId.getD "undefined")

end JobsService

/-- The service emits templates and adds jobs for the newest template. -/
inductive JobsEvent where
  | emitted (template : JobTemplate)
  | added (job : MiningJob) (template : JobTemplate)

/-- The newest event of the service comes first. -/
abbrev JobsHistory := List JobsEvent

namespace JobsHistory

/-- The template that a late subscriber receives. -/
def latestTemplate : JobsHistory → Option JobTemplate
  | [] => none
  | .emitted template :: _ => some template
  | .added _ _ :: earlier => latestTemplate earlier

def added : JobsHistory → List (MiningJob × JobTemplate)
  | [] => []
  | .emitted _ :: earlier => added earlier
  | .added job template :: earlier => (job, template) :: added earlier

/-- The jobs that were added after the last emission with `clearJobs`. -/
def addedSinceClear : JobsHistory → List (MiningJob × JobTemplate)
  | [] => []
  | .emitted template :: earlier =>
      if template.blockData.clearJobs then [] else addedSinceClear earlier
  | .added job template :: earlier => (job, template) :: addedSinceClear earlier

def templates : JobsHistory → List JobTemplate
  | [] => []
  | .emitted template :: earlier => template :: templates earlier
  | .added _ _ :: earlier => templates earlier

def jobIds (history : JobsHistory) : List String := history.added.map fun pair => pair.1.jobId

def templateIds (history : JobsHistory) : List String :=
  history.templates.map fun template => template.blockData.id

/-- The jobs that an emission with `clearJobs` removed. -/
def addedBeforeClear : JobsHistory → List (MiningJob × JobTemplate)
  | [] => []
  | .emitted template :: earlier =>
      if template.blockData.clearJobs then added earlier else addedBeforeClear earlier
  | .added _ _ :: earlier => addedBeforeClear earlier

/-- Every added job sends its notify line unless the line cannot be built. -/
def notifyLines (history : JobsHistory) : List MiningNotify :=
  history.added.filterMap fun pair => match pair.1.response pair.2 with
    | .ok (.notify params) => some params
    | _ => none

/-- The newest clear splits the added jobs. -/
theorem added_eq_append (history : JobsHistory) :
    history.added = history.addedSinceClear ++ history.addedBeforeClear := by
  induction history with
  | nil => rfl
  | cons event earlier ih =>
      cases event with
      | emitted template =>
          simp only [addedSinceClear, addedBeforeClear, added]
          split
          · rfl
          · exact ih
      | added job template => exact congrArg (List.cons (job, template)) ih

theorem addedSinceClear_subset (history : JobsHistory) :
    history.addedSinceClear ⊆ history.added := by
  rw [added_eq_append]
  exact List.subset_append_left _ _

/-- A notify line carries the id of its job. -/
theorem notifyLines_jobIds_sublist (history : JobsHistory) :
    (history.notifyLines.map MiningNotify.jobId).Sublist history.jobIds := by
  unfold notifyLines jobIds
  induction history.added with
  | nil => exact List.Sublist.refl _
  | cons pair earlier ih =>
      rw [List.filterMap_cons, List.map_cons]
      split
      · exact ih.cons _
      · rename_i line built
        have sameId : line.jobId = pair.1.jobId := by
          split at built
          · rename_i params response
            obtain rfl := Option.some.inj built
            exact MiningJob.jobId_of_response response
          · cases built
        rw [List.map_cons, sameId]
        exact ih.cons_cons _

end JobsHistory

/-- A history drives the service. Any subscriber may add a job for the newest template. -/
inductive ServiceRun : JobsService → JobsHistory → Prop where
  | initial : ServiceRun {} []
  | emit {service history} (block : BlockTemplate) (clearJobs : Bool) (run : ServiceRun service history) :
      ServiceRun (service.emitTemplate block clearJobs).1
        (.emitted (service.emitTemplate block clearJobs).2 :: history)
  | add {service history} (template : JobTemplate)
      (latest : JobsHistory.latestTemplate history = some template) (run : ServiceRun service history) :
      ServiceRun (service.addJob template).1 (.added (service.addJob template).2 template :: history)
  | schedule {service history} (lastIntervalCount : Option ℤ) (skipNext : Bool)
      (run : ServiceRun service history) :
      ServiceRun { service with lastIntervalCount := lastIntervalCount, skipNext := skipNext } history

/-- The joint invariant of both dictionaries, both counters, and the newest template. -/
structure ServiceInvariant (service : JobsService) (history : JobsHistory) : Prop where
  jobsExact : ∀ id job, service.jobs id = some job ↔
    ∃ template, (job, template) ∈ history.addedSinceClear ∧ job.jobId = id
  jobsIssued : ∀ pair ∈ history.added, ∃ n ≤ service.latestJobId, pair.1.jobId = hexText n
  templatesIssued : ∀ template ∈ history.templates,
    ∃ n ≤ service.latestJobTemplateId, template.blockData.id = hexText n
  jobIdsDistinct : history.jobIds.Nodup
  templateIdsDistinct : history.templateIds.Nodup
  latestIssued : ∀ template, history.latestTemplate = some template → template ∈ history.templates
  latestStored : ∀ template, history.latestTemplate = some template →
    service.blocks template.blockData.id = some template
  jobsTemplate : ∀ pair ∈ history.added,
    pair.2 ∈ history.templates ∧ pair.1.jobTemplateId = pair.2.blockData.id
  jobsStored : ∀ pair ∈ history.addedSinceClear, service.blocks pair.1.jobTemplateId = some pair.2
  blocksKeyed : ∀ id template, service.blocks id = some template →
    template ∈ history.templates ∧ template.blockData.id = id

/-- The next template id is new. -/
theorem ServiceInvariant.fresh_template {service : JobsService} {history : JobsHistory}
    (kept : ServiceInvariant service history) {template : JobTemplate}
    (member : template ∈ history.templates) :
    template.blockData.id ≠ hexText (service.latestJobTemplateId + 1) := by
  obtain ⟨n, bound, equal⟩ := kept.templatesIssued template member
  rw [equal]
  intro same
  have := hexText_injective same
  omega

/-- The next job id is new. -/
theorem ServiceInvariant.fresh_job {service : JobsService} {history : JobsHistory}
    (kept : ServiceInvariant service history) {pair : MiningJob × JobTemplate}
    (member : pair ∈ history.added) : pair.1.jobId ≠ hexText (service.latestJobId + 1) := by
  obtain ⟨n, bound, equal⟩ := kept.jobsIssued pair member
  rw [equal]
  intro same
  have := hexText_injective same
  omega

theorem serviceInvariant_initial : ServiceInvariant {} [] := by
  constructor <;> simp [JobsHistory.addedSinceClear, JobsHistory.added, JobsHistory.templates,
    JobsHistory.jobIds, JobsHistory.templateIds, JobsHistory.latestTemplate]

/-- An emission keeps the invariant, whether or not it clears. -/
theorem ServiceInvariant.emit {service : JobsService} {history : JobsHistory}
    (kept : ServiceInvariant service history) (block : BlockTemplate) (clearJobs : Bool) :
    ServiceInvariant (service.emitTemplate block clearJobs).1
      (.emitted (service.emitTemplate block clearJobs).2 :: history) := by
  obtain ⟨template, built⟩ : ∃ template, (service.emitTemplate block clearJobs).2 = template := ⟨_, rfl⟩
  have newId : template.blockData.id = hexText (service.latestJobTemplateId + 1) := by
    rw [← built]; rfl
  have clears : template.blockData.clearJobs = clearJobs := by rw [← built]; rfl
  have sameJobIds : (service.emitTemplate block clearJobs).1.latestJobId = service.latestJobId := by
    cases clearJobs <;> rfl
  have nextTemplateId : (service.emitTemplate block clearJobs).1.latestJobTemplateId =
      service.latestJobTemplateId + 1 := by
    cases clearJobs <;> rfl
  have blocks : (service.emitTemplate block clearJobs).1.blocks =
      (if clearJobs then Dictionary.empty else service.blocks).insert template.blockData.id template := by
    rw [← built]; cases clearJobs <;> rfl
  have jobs : (service.emitTemplate block clearJobs).1.jobs =
      if clearJobs then Dictionary.empty else service.jobs := by
    cases clearJobs <;> rfl
  rw [built]
  have since : JobsHistory.addedSinceClear (.emitted template :: history) =
      if clearJobs then [] else history.addedSinceClear := by
    rw [JobsHistory.addedSinceClear, clears]
  constructor
  · intro id job
    rw [jobs, since]
    cases clearJobs with
    | true => simp
    | false => exact kept.jobsExact id job
  · rw [sameJobIds]
    exact kept.jobsIssued
  · rw [nextTemplateId]
    intro other member
    rcases List.mem_cons.mp member with rfl | member
    · exact ⟨_, Nat.le_refl _, newId⟩
    · obtain ⟨n, bound, equal⟩ := kept.templatesIssued other member
      exact ⟨n, by omega, equal⟩
  · exact kept.jobIdsDistinct
  · refine List.nodup_cons.mpr ⟨?_, kept.templateIdsDistinct⟩
    intro member
    obtain ⟨other, found, equal⟩ := List.mem_map.mp member
    exact kept.fresh_template found (equal.trans newId)
  · intro other latest
    obtain rfl : template = other := Option.some.inj latest
    exact List.mem_cons_self
  · intro other latest
    obtain rfl : template = other := Option.some.inj latest
    rw [blocks, Dictionary.insert_self]
  · intro pair member
    obtain ⟨known, same⟩ := kept.jobsTemplate pair member
    exact ⟨List.mem_cons_of_mem _ known, same⟩
  · intro pair member
    rw [since] at member
    cases clearJobs with
    | true => cases member
    | false =>
        obtain ⟨known, same⟩ := kept.jobsTemplate pair (history.addedSinceClear_subset member)
        have different : pair.1.jobTemplateId ≠ template.blockData.id := by
          rw [same, newId]
          exact kept.fresh_template known
        rw [blocks, Dictionary.insert_of_ne _ _ different]
        exact kept.jobsStored pair member
  · intro id other stored
    rw [blocks, Dictionary.insert_eq_some] at stored
    rcases stored with ⟨rfl, rfl⟩ | ⟨_, stored⟩
    · exact ⟨List.mem_cons_self, rfl⟩
    · cases clearJobs with
      | true => cases stored
      | false =>
          obtain ⟨known, sameId⟩ := kept.blocksKeyed id other stored
          exact ⟨List.mem_cons_of_mem _ known, sameId⟩

/-- A new job for the newest template keeps the invariant. -/
theorem ServiceInvariant.add {service : JobsService} {history : JobsHistory}
    (kept : ServiceInvariant service history) {template : JobTemplate}
    (latest : history.latestTemplate = some template) :
    ServiceInvariant (service.addJob template).1
      (.added (service.addJob template).2 template :: history) := by
  obtain ⟨job, built⟩ : ∃ job, (service.addJob template).2 = job := ⟨_, rfl⟩
  have newId : job.jobId = hexText (service.latestJobId + 1) := by rw [← built]; rfl
  have sameTemplate : job.jobTemplateId = template.blockData.id := by rw [← built]; rfl
  have jobs : (service.addJob template).1.jobs = service.jobs.insert job.jobId job := by
    rw [← built]; rfl
  rw [built]
  constructor
  · intro id other
    rw [jobs, Dictionary.insert_eq_some]
    simp only [JobsHistory.addedSinceClear, List.mem_cons, Prod.mk.injEq]
    constructor
    · rintro (⟨rfl, rfl⟩ | ⟨_, stored⟩)
      · exact ⟨template, .inl ⟨rfl, rfl⟩, rfl⟩
      · obtain ⟨stored', member, same⟩ := (kept.jobsExact id other).mp stored
        exact ⟨stored', .inr member, same⟩
    · rintro ⟨found, ⟨rfl, rfl⟩ | member, rfl⟩
      · exact .inl ⟨rfl, rfl⟩
      · refine .inr ⟨?_, (kept.jobsExact _ other).mpr ⟨found, member, rfl⟩⟩
        rw [newId]
        exact kept.fresh_job (history.addedSinceClear_subset member)
  · intro pair member
    rcases List.mem_cons.mp member with rfl | member
    · exact ⟨_, Nat.le_refl _, newId⟩
    · obtain ⟨n, bound, equal⟩ := kept.jobsIssued pair member
      exact ⟨n, Nat.le_succ_of_le bound, equal⟩
  · exact kept.templatesIssued
  · refine List.nodup_cons.mpr ⟨?_, kept.jobIdsDistinct⟩
    intro member
    obtain ⟨pair, found, equal⟩ := List.mem_map.mp member
    exact kept.fresh_job found (equal.trans newId)
  · exact kept.templateIdsDistinct
  · exact kept.latestIssued
  · exact kept.latestStored
  · intro pair member
    rcases List.mem_cons.mp member with rfl | member
    · exact ⟨kept.latestIssued template latest, sameTemplate⟩
    · exact kept.jobsTemplate pair member
  · intro pair member
    rcases List.mem_cons.mp member with rfl | member
    · rw [sameTemplate]
      exact kept.latestStored template latest
    · exact kept.jobsStored pair member
  · exact kept.blocksKeyed

/-- Every run of the service keeps the invariant. -/
theorem ServiceRun.invariant {service : JobsService} {history : JobsHistory}
    (run : ServiceRun service history) : ServiceInvariant service history := by
  induction run with
  | initial => exact serviceInvariant_initial
  | emit block clearJobs _ kept => exact kept.emit block clearJobs
  | add template latest _ kept => exact kept.add latest
  | schedule lastIntervalCount skipNext _ kept => exact ⟨kept.jobsExact, kept.jobsIssued, kept.templatesIssued,
      kept.jobIdsDistinct, kept.templateIdsDistinct, kept.latestIssued, kept.latestStored,
      kept.jobsTemplate, kept.jobsStored, kept.blocksKeyed⟩

/-- A text with another character than a base-16 digit is no printed number. -/
theorem hexText_ne_of_not_digits {text : String}
    (other : text.toList.all (fun c => (hexDigit c).isSome) = false) (value : ℕ) : hexText value ≠ text := by
  rintro rfl
  rw [hexText, String.toList_ofList, List.all_eq_false] at other
  obtain ⟨c, member, noDigit⟩ := other
  exact noDigit (isSome_hexDigit_of_mem_toDigits value c member)

/-- No inherited member of an object has a printed number as its name. -/
theorem hexText_not_inherited (value : ℕ) : hexText value ∉ inheritedKeys := by
  intro member
  have others : ∀ key ∈ inheritedKeys, key.toList.all (fun c => (hexDigit c).isSome) = false := by decide
  exact hexText_ne_of_not_digits (others _ member) value rfl

/-- A job that a clear removed is never found again. -/
theorem ServiceInvariant.removed {service : JobsService} {history : JobsHistory}
    (kept : ServiceInvariant service history) {pair : MiningJob × JobTemplate}
    (removed : pair ∈ history.addedBeforeClear) : service.getJobById pair.1.jobId = none := by
  have member : pair ∈ history.added := by
    rw [history.added_eq_append]
    exact List.mem_append_right _ removed
  obtain ⟨n, _, printed⟩ := kept.jobsIssued pair member
  have distinct := kept.jobIdsDistinct
  rw [JobsHistory.jobIds, history.added_eq_append, List.map_append, List.nodup_append] at distinct
  have absent : service.jobs pair.1.jobId = none := by
    cases stored : service.jobs pair.1.jobId with
    | none => rfl
    | some job =>
        obtain ⟨template, since, sameId⟩ := (kept.jobsExact _ _).mp stored
        exact absurd sameId (distinct.2.2 _ (List.mem_map_of_mem since) _ (List.mem_map_of_mem removed))
  rw [JobsService.getJobById, Dictionary.read, absent, printed]
  exact if_neg (hexText_not_inherited n)

/-- In every run a stored job has its stored template, the stored jobs are the jobs since the last
clear, and no job id and no template id is issued twice. -/
theorem ServiceRun.store_exact {service : JobsService} {history : JobsHistory}
    (run : ServiceRun service history) :
    (∀ id job, service.getJobById id = some (.own job) → ∃ template,
      (job, template) ∈ history.added ∧
        service.getJobTemplateById (some job.jobTemplateId) = some (.own template)) ∧
    (∀ id job, service.getJobById id = some (.own job) ↔
      ∃ template, (job, template) ∈ history.addedSinceClear ∧ job.jobId = id) ∧
    history.jobIds.Nodup ∧ history.templateIds.Nodup ∧
    (∀ pair ∈ history.addedBeforeClear, service.getJobById pair.1.jobId = none) ∧
    (history.notifyLines.map MiningNotify.jobId).Nodup := by
  have kept := run.invariant
  have exact : ∀ id job, service.getJobById id = some (.own job) ↔
      ∃ template, (job, template) ∈ history.addedSinceClear ∧ job.jobId = id := by
    intro id job
    rw [JobsService.getJobById, Dictionary.read_eq_own]
    exact kept.jobsExact id job
  refine ⟨?_, exact, kept.jobIdsDistinct, kept.templateIdsDistinct, fun pair => kept.removed,
    history.notifyLines_jobIds_sublist.nodup kept.jobIdsDistinct⟩
  intro id job found
  obtain ⟨template, since, _⟩ := (exact id job).mp found
  refine ⟨template, history.addedSinceClear_subset since, ?_⟩
  rw [JobsService.getJobTemplateById, Dictionary.read_eq_own]
  exact kept.jobsStored _ since

/-- A job is issued, and then the next block clears it. -/
theorem ServiceRun.store_exact_after_clear :
    ∃ service history, ServiceRun service history ∧ history.jobIds = ["2"] ∧
      service.getJobById "2" = none := by
  let block := getBlockTemplate (List.replicate 32 7) (List.replicate 32 1) 0
  let opened := ({} : JobsService).emitTemplate block false
  let joined := opened.1.addJob opened.2
  have run : ServiceRun joined.1 [.added joined.2 opened.2, .emitted opened.2] :=
    .add opened.2 rfl (.emit block false .initial)
  have cleared := (ServiceRun.emit block true run).store_exact.2.2.2.2.1
  have printed : hexText 2 = "2" := by decide
  refine ⟨_, _, .emit block true run, ?_, ?_⟩
  · show [hexText 2] = ["2"]
    rw [printed]
  · rw [← printed]
    exact cleared (joined.2, opened.2) (List.mem_singleton.mpr rfl)

end ComptoMiningPool
