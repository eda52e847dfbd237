import ComptoMiningPool.Async.Threads
import ComptoMiningPool.Rpc.Service

/-
This file proves when overlapping minings keep the capacity of the user data account above its proofs.
-/

namespace ComptoMiningPool

open JavaScript Async

/-- The user data account holds proofs up to its capacity. -/
structure Account where
  stored : ℕ
  capacity : ℕ

abbrev MiningEvent := Event RpcAnswer ComptokenProof

abbrev MiningTrace := Trace RpcAnswer ComptokenProof

namespace MiningEvent

def stores : MiningEvent → Bool
  | .answered (.submitMiningProof _) (.ok _) => true
  | _ => false

def fetched : MiningEvent → Option ℕ
  | .answered .fetchUserData (.ok count) => some count
  | _ => none

def requested : MiningEvent → Option ℕ
  | .issued (.resizeUserDataAccount capacity) => some capacity
  | _ => none

def granted : MiningEvent → Option ℕ
  | .answered (.resizeUserDataAccount capacity) (.ok _) => some capacity
  | _ => none

end MiningEvent

/-- Each mint stores a proof, and each resize sets the capacity. -/
def Account.after (account : Account) (trace : MiningTrace) : Account where
  stored := account.stored + trace.countP fun pair => MiningEvent.stores pair.2
  capacity := (trace.filterMap fun pair => MiningEvent.granted pair.2).head?.getD account.capacity

/-- A fetch reads the stored proofs. A mint needs room, and only a full account is called full. -/
def accountAdmits (account : Account) (_ : ℕ) (_ : RpcState) (trace : MiningTrace) :
    (call : RpcCall) → RpcAnswer call → Prop
  | .fetchUserData, answer => ∀ count, answer = .ok count → count = (account.after trace).stored
  | .submitMiningProof _, answer =>
      (answer.isOk = true → (account.after trace).stored < (account.after trace).capacity) ∧
        ∀ thrown, answer = .error thrown → thrown.errorCode = some capacityExceeded →
          (account.after trace).capacity ≤ (account.after trace).stored
  | _, _ => True

/-- Any number of minings run beside each other on one account. -/
def miningSemantics (account : Account) :
    Semantics RpcState RpcAnswer Thrown (Reply String) ComptokenProof where
  program := mineComptokens
  mayStart _ _ _ := True
  admits := accountAdmits account
  disturbs _ _ := True

/-- Each requested capacity exceeds the proofs that are stored at its request, and it is at least every
capacity that has been granted. -/
def NeverShrinks (account : Account) (trace : MiningTrace) : Prop :=
  Accepted (fun earlier _ event => ∀ capacity, MiningEvent.requested event = some capacity →
    (account.after earlier).stored < capacity ∧
      ∀ pair ∈ earlier, ∀ granted, MiningEvent.granted pair.2 = some granted → granted ≤ capacity) trace

/-- From the fetch of each mining to its resize fewer than 100 proofs are stored, and no resize completes
that follows a fetch of more proofs. -/
def FreshFetches (trace : MiningTrace) : Prop :=
  Accepted (fun earlier me event => ∀ capacity, MiningEvent.requested event = some capacity →
    ∀ since before count, earlier = since ++ (me, .answered .fetchUserData (.ok count)) :: before →
      (since.countP fun pair => MiningEvent.stores pair.2) < 100 ∧
        ∀ pair ∈ since, (MiningEvent.granted pair.2).isSome = true → ∀ other,
          (pair.1, .answered .fetchUserData (.ok other)) ∈ earlier → other ≤ count) trace

/-- The fetches of one mining, newest first. -/
def fetches (me : ℕ) (trace : MiningTrace) : List ℕ := (own me trace).filterMap MiningEvent.fetched

/-- A mining fetches once, and its resize adds 100 to what it has fetched. -/
def capacityMonitor (account : Account) (trace : MiningTrace) (me : ℕ) : MiningEvent → Prop
  | .issued (.resizeUserDataAccount capacity) => ∃ count, fetches me trace = [count] ∧ capacity = count + 100
  | .answered .fetchUserData answer => fetches me trace = [] ∧
      ∀ count, answer = .ok count → count = (account.after trace).stored
  | .answered (.resizeUserDataAccount capacity) _ => (me, .issued (.resizeUserDataAccount capacity)) ∈ trace
  | _ => True

def capacityContract (account : Account) : Contract RpcState RpcAnswer ComptokenProof where
  admits := accountAdmits account
  monitor := capacityMonitor account
  rely _ _ := True
  invariant _ _ := True

/-- These calls neither fetch nor resize. -/
def RpcCall.Minting : RpcCall → Prop
  | .submitMiningProof _ => True
  | .turn => True
  | _ => False

section Mining

variable {V : Type} {account : Account} {me : ℕ} {state : RpcState} {trace : MiningTrace}
  {counts : List ℕ}

theorem fetches_cons {event : MiningEvent} (silent : MiningEvent.fetched event = none) :
    fetches me ((me, event) :: trace) = fetches me trace := by
  rw [fetches, own_cons_self, List.filterMap_cons_none silent]
  rfl

theorem fetches_of_extends {trace' : MiningTrace} (extension : Extends me trace trace') :
    fetches me trace' = fetches me trace := by
  rw [fetches, extension.own_eq]
  rfl

theorem fetches_of_issued {request : RpcCall} {trace' : MiningTrace}
    (extension : Extends me ((me, .issued request) :: trace) trace') :
    fetches me trace' = fetches me trace := by
  rw [fetches_of_extends extension, fetches_cons rfl]

/-- A turn leaves the fetches as they are. -/
theorem wp_turn_of_mining {post : Post RpcState RpcAnswer Thrown V ComptokenProof}
    {next : RpcAnswer .turn → RpcProgram V}
    (continues : ∀ state' trace', fetches me trace' = fetches me trace →
      wp (capacityContract account) me (next ()) post state' trace') :
    wp (capacityContract account) me (.await .turn next) post state trace := by
  refine ⟨trivial, trivial, ?_⟩
  intro state' trace' _ extension _ answer _
  refine ⟨trivial, ?_⟩
  apply continues
  rw [fetches_cons rfl, fetches_of_issued extension]

/-- A program that only mints leaves the fetches as they are. -/
theorem wp_of_minting {program : RpcProgram V} (confined : Confined RpcCall.Minting program)
    (known : fetches me trace = counts) :
    wp (capacityContract account) me program (fun _ _ trace => fetches me trace = counts) state trace := by
  refine @wp_of_confined_between _ _ _ _ _ _ (capacityContract account) _ _
    (fun _ trace => fetches me trace = counts) _ _ _ confined known ?_ ?_
  · intro state trace request answer known minting
    exact ⟨trivial, (fetches_cons rfl).trans known⟩
  · intro state trace request known minting
    have issued : capacityMonitor account trace me (.issued request) := by
      cases request <;> first | exact minting.elim | trivial
    refine ⟨issued, trivial, ?_⟩
    intro state' trace' answer _ extension _
    have later : fetches me trace' = counts := (fetches_of_issued extension).trans known
    cases request with
    | submitMiningProof proof => exact ⟨trivial, (fetches_cons rfl).trans later⟩
    | turn => exact ⟨trivial, (fetches_cons rfl).trans later⟩
    | _ => exact minting.elim

/-- A logged mint is a minting. -/
theorem minting_submitMiningProof (proof : ComptokenProof) :
    Confined RpcCall.Minting ((tryWithLog (submitMiningProof proof)).joined .turn) := by
  apply Confined.joined _ trivial
  apply Confined.attempt
  · apply Confined.bind
    · exact Confined.joined ⟨trivial, confined_ofExcept⟩ trivial
    · exact fun _ => trivial
  · exact fun _ => trivial

/-- A logged fetch returns its error or the one count that the mining has fetched. -/
theorem wp_fetchUserData (known : fetches me trace = []) :
    wp (capacityContract account) me ((tryWithLog fetchUserData).joined .turn)
      (fun result _ trace => ∃ logged, result = .ok logged ∧
        ∀ count, logged = .result count → fetches me trace = [count]) state trace := by
  refine ⟨trivial, trivial, ?_⟩
  intro state₁ trace₁ _ extension _ answer admitted
  have none : fetches me trace₁ = [] := (fetches_of_issued extension).trans known
  refine ⟨⟨none, admitted⟩, ?_⟩
  cases answer with
  | error thrown =>
      apply wp_turn_of_mining
      intro state₂ trace₂ _
      apply wp_turn_of_mining
      intro state₃ trace₃ _
      exact ⟨.error (loggedError thrown) thrown, rfl, fun count equal => by cases equal⟩
  | ok count =>
      have one : fetches me ((me, .answered .fetchUserData (.ok count)) :: trace₁) = [count] := by
        rw [fetches, own_cons_self, @List.filterMap_cons_some _ _ MiningEvent.fetched _ _ count rfl]
        exact congrArg (List.cons count) none
      apply wp_turn_of_mining
      intro state₂ trace₂ known₂
      apply wp_turn_of_mining
      intro state₃ trace₃ known₃
      refine ⟨.result count, rfl, ?_⟩
      intro other equal
      cases equal
      rw [known₃, known₂, one]

/-- The resize asks for 100 proofs more than the fetch has seen. -/
theorem wp_increaseUserDataCapacity_of_unfetched (known : fetches me trace = []) :
    wp (capacityContract account) me (increaseUserDataCapacity 100) (fun _ _ _ => True) state trace := by
  unfold increaseUserDataCapacity
  simp only [Program.bind_eq]
  rw [wp_bind]
  apply wp_mono _ (wp_fetchUserData known)
  rintro _ state₁ trace₁ ⟨logged, rfl, single⟩
  cases logged with
  | error message thrown => trivial
  | result count =>
      refine ⟨⟨count, single count rfl, rfl⟩, trivial, ?_⟩
      intro state₂ trace₂ _ extension _ answer _
      refine ⟨extension.mem List.mem_cons_self, ?_⟩
      cases answer with
      | error thrown =>
          apply wp_turn_of_mining
          intro state₃ trace₃ _
          apply wp_turn_of_mining
          exact fun _ _ _ => trivial
      | ok signature =>
          apply wp_turn_of_mining
          intro state₃ trace₃ _
          apply wp_turn_of_mining
          exact fun _ _ _ => trivial

/-- A mining meets the monitor from its start on. -/
theorem wp_mineComptokens_of_unfetched (proof : ComptokenProof) (known : fetches me trace = []) :
    wp (capacityContract account) me (mineComptokens proof) (fun _ _ _ => True) state trace := by
  unfold mineComptokens
  simp only [Program.bind_eq]
  rw [wp_bind]
  apply wp_mono _ (wp_of_minting (minting_submitMiningProof proof) known)
  intro result state₁ trace₁ known₁
  cases result with
  | error thrown => trivial
  | ok logged =>
      cases logged with
      | result signature => trivial
      | error message rawError =>
          dsimp only
          split
          · rw [wp_bind, wp_joined]
            apply wp_mono _ (wp_increaseUserDataCapacity_of_unfetched known₁)
            intro increased state₂ trace₂ _
            apply wp_turn_of_mining
            intro state₃ trace₃ _
            rw [wp_ofExcept]
            cases increased with
            | error thrown => trivial
            | ok reply =>
                cases reply with
                | error message => trivial
                | result signature =>
                    show wp (capacityContract account) me
                      (((tryWithLog (submitMiningProof proof)).joined .turn).bind fun retried =>
                        .done retried.reply) _ state₃ trace₃
                    rw [wp_bind]
                    apply wp_mono _ (wp_of_minting (minting_submitMiningProof proof) rfl)
                    intro retried state₄ trace₄ _
                    cases retried <;> trivial
          · trivial

end Mining

theorem capacityContract_proved (account : Account) (initial : RpcState) :
    (capacityContract account).Proved (miningSemantics account) initial where
  sameAnswers := rfl
  relyRefl _ := trivial
  relyTrans _ _ _ _ _ := trivial
  initially := trivial
  starts := by
    intro state trace me proof _ _ fresh
    refine ⟨trivial, wp_mineComptokens_of_unfetched proof ?_⟩
    rw [fetches_cons rfl]
    apply List.filterMap_eq_nil_iff.mpr
    intro event member
    exact absurd (mem_own.mp member) (fresh event)
  disturbed _ _ _ _ _ := ⟨trivial, trivial⟩

section Trace

variable {account : Account} {me : ℕ} {trace before : MiningTrace} {count capacity : ℕ}

theorem mem_fetches :
    count ∈ fetches me trace ↔ (me, .answered .fetchUserData (.ok count)) ∈ trace := by
  unfold fetches
  rw [List.mem_filterMap]
  constructor
  · rintro ⟨event, member, isFetch⟩
    have same : event = .answered .fetchUserData (.ok count) := by
      unfold MiningEvent.fetched at isFetch
      split at isFetch
      · cases isFetch
        rfl
      · cases isFetch
    rw [← same]
    exact mem_own.mp member
  · intro member
    exact ⟨_, mem_own.mpr member, rfl⟩

theorem Account.stored_mono (suffix : before <:+ trace) :
    (account.after before).stored ≤ (account.after trace).stored :=
  Nat.add_le_add_left suffix.sublist.countP_le _

/-- The proofs that are stored since a fetch add up. -/
theorem Account.stored_since {since : MiningTrace} :
    (account.after (since ++ (me, .answered .fetchUserData (.ok count)) :: before)).stored =
      (account.after before).stored + since.countP fun pair => MiningEvent.stores pair.2 := by
  unfold Account.after
  simp only [List.countP_append]
  rw [List.countP_cons_of_neg (by simp [MiningEvent.stores])]
  omega

/-- Each mining has fetched one count. -/
theorem fetched_eq (accepted : Accepted (capacityMonitor account) trace) {first second : ℕ}
    (firstMember : (me, .answered .fetchUserData (.ok first)) ∈ trace)
    (secondMember : (me, .answered .fetchUserData (.ok second)) ∈ trace) : first = second := by
  have single : Accepted (fun trace me event => (MiningEvent.fetched event).isSome = true →
      ∀ event', (me, event') ∈ trace → ¬ (MiningEvent.fetched event').isSome = true) trace := by
    intro index event earlier suffix isFetch event' member isFetch'
    have none : fetches index earlier = [] := by
      unfold MiningEvent.fetched at isFetch
      split at isFetch
      · exact (accepted _ _ _ suffix).1
      · cases isFetch
    have absent := List.filterMap_eq_nil_iff.mp none event' (mem_own.mpr member)
    rw [absent] at isFetch'
    cases isFetch'
  have same := eq_of_accepted single rfl rfl firstMember secondMember
  cases same
  rfl

/-- A fetch has read the proofs that were stored at its answer. -/
theorem stored_of_fetched (accepted : Accepted (capacityMonitor account) trace)
    (suffix : (me, .answered .fetchUserData (.ok count)) :: before <:+ trace) :
    count = (account.after before).stored :=
  (accepted _ _ _ suffix).2 count rfl

/-- A granted capacity is 100 above the fetch of its own mining. -/
theorem fetched_of_granted (accepted : Accepted (capacityMonitor account) trace)
    {pair : ℕ × MiningEvent} (member : pair ∈ trace)
    (granted : MiningEvent.granted pair.2 = some capacity) :
    ∃ count, (pair.1, .answered .fetchUserData (.ok count)) ∈ trace ∧ capacity = count + 100 := by
  obtain ⟨other, event⟩ := pair
  change MiningEvent.granted event = some capacity at granted
  unfold MiningEvent.granted at granted
  split at granted
  · cases granted
    obtain ⟨earlier, older, issued⟩ := accepted.of_mem member
    obtain ⟨earlier', older', count, single, sum⟩ := accepted.of_mem (older issued)
    exact ⟨count, older' (mem_fetches.mp (by rw [single]; exact List.mem_singleton_self _)), sum⟩
  · cases granted

/-- A request is large enough exactly when its fetch is fresh. -/
theorem request_iff_fresh
    (accepted : Accepted (capacityMonitor account) ((me, .issued (.resizeUserDataAccount capacity)) :: trace)) :
    ((account.after trace).stored < capacity ∧
        ∀ pair ∈ trace, ∀ granted, MiningEvent.granted pair.2 = some granted → granted ≤ capacity) ↔
      ∀ since before count, trace = since ++ (me, .answered .fetchUserData (.ok count)) :: before →
        (since.countP fun pair => MiningEvent.stores pair.2) < 100 ∧
          ∀ pair ∈ since, (MiningEvent.granted pair.2).isSome = true → ∀ other,
            (pair.1, .answered .fetchUserData (.ok other)) ∈ trace → other ≤ count := by
  obtain ⟨⟨fetched, single, sum⟩, older⟩ := accepted_cons.mp accepted
  subst sum
  constructor
  · rintro ⟨exceeds, above⟩ since before count split
    have seen : count = fetched := by
      have member : count ∈ fetches me trace := by
        rw [mem_fetches, split]
        exact List.mem_append_right _ List.mem_cons_self
      rw [single] at member
      exact List.mem_singleton.mp member
    have stored : count = (account.after before).stored :=
      stored_of_fetched older (split ▸ List.suffix_append _ _)
    constructor
    · rw [split, Account.stored_since] at exceeds
      omega
    · intro pair member granted other fetchedOther
      obtain ⟨capacity, isGrant⟩ := Option.isSome_iff_exists.mp granted
      have inside : pair ∈ trace := by
        rw [split]
        exact List.mem_append_left _ member
      obtain ⟨count', fetched', sum⟩ := fetched_of_granted older inside isGrant
      have same := fetched_eq older fetchedOther fetched'
      have bound := above pair inside capacity isGrant
      omega
  · intro fresh
    have member : (me, .answered .fetchUserData (.ok fetched)) ∈ trace := by
      rw [← mem_fetches, single]
      exact List.mem_singleton_self _
    obtain ⟨since, before, split⟩ := List.append_of_mem member
    obtain ⟨few, seen⟩ := fresh since before fetched split
    have suffix : before <:+ trace := by
      rw [split]
      exact (List.suffix_cons _ _).trans (List.suffix_append _ _)
    have stored : fetched = (account.after before).stored :=
      stored_of_fetched older (split ▸ List.suffix_append _ _)
    constructor
    · rw [split, Account.stored_since]
      omega
    · intro pair inside granted isGrant
      have place : pair ∈ since ∨ pair ∈ before := by
        rw [split] at inside
        rcases List.mem_append.mp inside with late | early
        · exact Or.inl late
        · rcases List.mem_cons.mp early with rfl | early
          · cases isGrant
          · exact Or.inr early
      rcases place with late | early
      · obtain ⟨count, fetchedOther, sum⟩ := fetched_of_granted older inside isGrant
        have bound := seen pair late (by rw [isGrant]; rfl) count fetchedOther
        omega
      · obtain ⟨count, fetchedOther, sum⟩ := fetched_of_granted (older.of_suffix suffix) early isGrant
        obtain ⟨since', before', split'⟩ := List.append_of_mem fetchedOther
        have earlier : before' <:+ before := by
          rw [split']
          exact (List.suffix_cons _ _).trans (List.suffix_append _ _)
        have stored' : count = (account.after before').stored :=
          stored_of_fetched (older.of_suffix suffix) (split' ▸ List.suffix_append _ _)
        have grows : (account.after before').stored ≤ (account.after before).stored :=
          Account.stored_mono earlier
        omega

end Trace

/-- The requested capacities never shrink exactly when each mining resizes on a fresh fetch. -/
theorem neverShrinks_iff_freshFetches (account : Account) (initial : RpcState)
    {system : System RpcState RpcAnswer Thrown (Reply String) ComptokenProof}
    (reached : Reachable (miningSemantics account) initial system) :
    NeverShrinks account system.trace ↔ FreshFetches system.trace := by
  obtain ⟨_, accepted⟩ := (capacityContract_proved account initial).reachable reached
  have pointwise : ∀ index event earlier, (index, event) :: earlier <:+ system.trace →
      ∀ capacity, MiningEvent.requested event = some capacity →
        event = .issued (.resizeUserDataAccount capacity) := by
    intro index event earlier _ capacity requested
    unfold MiningEvent.requested at requested
    split at requested
    · cases requested
      rfl
    · cases requested
  constructor
  · intro grows index event earlier suffix capacity requested
    have bound := grows index event earlier suffix capacity requested
    obtain rfl := pointwise index event earlier suffix capacity requested
    exact (request_iff_fresh (accepted.of_suffix suffix)).mp bound
  · intro fresh index event earlier suffix capacity requested
    have bound := fresh index event earlier suffix capacity requested
    obtain rfl := pointwise index event earlier suffix capacity requested
    exact (request_iff_fresh (accepted.of_suffix suffix)).mpr bound

/-- Fetches stay fresh while no mint and no resize completes. -/
theorem freshFetches_of_quiet {trace : MiningTrace}
    (quiet : ∀ pair ∈ trace, MiningEvent.stores pair.2 = false ∧ MiningEvent.granted pair.2 = none) :
    FreshFetches trace := by
  intro index event earlier suffix capacity _ since before count split
  have inside : ∀ pair ∈ since, pair ∈ trace := by
    intro pair member
    apply ((List.suffix_cons _ _).trans suffix).subset
    rw [split]
    exact List.mem_append_left _ member
  have none : (since.countP fun pair => MiningEvent.stores pair.2) = 0 := by
    rw [List.countP_eq_zero]
    intro pair member
    rw [(quiet pair (inside pair member)).1]
    exact Bool.false_ne_true
  refine ⟨by omega, ?_⟩
  intro pair member granted
  rw [(quiet pair (inside pair member)).2] at granted
  cases granted

/-- An account is called full once its capacity is used up. -/
theorem full_admitted {account : Account} (me : ℕ) (state : RpcState) {trace : MiningTrace}
    {proof : ComptokenProof} {thrown : Thrown}
    (full : (account.after trace).capacity ≤ (account.after trace).stored) :
    accountAdmits account me state trace (.submitMiningProof proof) (.error thrown) :=
  ⟨fun succeeds => absurd succeeds Bool.false_ne_true, fun _ _ _ => full⟩

/-- The error of the chain program for a full account. -/
def capacityError : Thrown where
  isError := true
  message := some (.string capacityExceeded)
  errorCode := some capacityExceeded

/-- The awaits of a mining on a full account. -/
theorem mineComptokens_of_full (proof : ComptokenProof) :
    ∃ (minted retried : Except Thrown String → RpcProgram (Reply String))
      (fetched : Except Thrown ℕ → RpcProgram (Reply String))
      (resized : ℕ → Except Thrown String → RpcProgram (Reply String)),
    mineComptokens proof = .await (.submitMiningProof proof) minted ∧
      minted (.error capacityError) =
        .await .turn (fun _ => .await .turn fun _ => .await .fetchUserData fetched) ∧
      (∀ count, fetched (.ok count) =
        .await .turn fun _ => .await .turn fun _ => .await (.resizeUserDataAccount (count + 100)) (resized count)) ∧
      (∀ count signature, resized count (.ok signature) =
        .await .turn fun _ => .await .turn fun _ => .await .turn fun _ =>
          .await (.submitMiningProof proof) retried) ∧
      ∃ next, retried (.ok "minted") = .await .turn next :=
  ⟨_, _, _, _, rfl, rfl, fun _ => rfl, fun _ _ => rfl, _, rfl⟩

/-- One mining on a full account asks for 100 proofs more. -/
theorem neverShrinks_for_one_mining :
    ∃ system : System RpcState RpcAnswer Thrown (Reply String) ComptokenProof,
      Reachable (miningSemantics ⟨10, 10⟩) {} system ∧
        (0, .issued (.resizeUserDataAccount 110)) ∈ system.trace ∧ NeverShrinks ⟨10, 10⟩ system.trace := by
  let proof : ComptokenProof := ⟨[], [], [], 0, 0, 0, .targetBytesDevnet⟩
  obtain ⟨minted, retried, fetched, resized, mines, afterFull, afterFetch, afterResize, _, retires⟩ :=
    mineComptokens_of_full proof
  have asked : Reachable (miningSemantics ⟨10, 10⟩) {} ⟨_, _, _⟩ :=
    Reachable.start .refl proof trivial (.await_of_eq mines)
  have full := asked.resume 0 rfl (.error capacityError) (full_admitted 0 {} (Nat.le_refl 10)) (.await_of_eq afterFull)
  have fetching := (full.resume 0 rfl () trivial .await).resume 0 rfl () trivial .await
  have seen := fetching.resume 0 rfl (.ok 10) (by rintro _ ⟨⟩; rfl) (.await_of_eq (afterFetch 10))
  have reached := (seen.resume 0 rfl () trivial .await).resume 0 rfl () trivial .await
  refine ⟨_, reached, List.mem_cons_self, (neverShrinks_iff_freshFetches _ _ reached).mpr ?_⟩
  apply freshFetches_of_quiet
  simp [MiningEvent.stores, MiningEvent.granted]

/-- Three minings find the account full. The one that fetches first resizes last, and it asks for less than
the account has been granted. -/
theorem neverShrinks_fails_for_stale_fetch :
    ∃ system : System RpcState RpcAnswer Thrown (Reply String) ComptokenProof,
      Reachable (miningSemantics ⟨10, 10⟩) {} system ∧ ¬ NeverShrinks ⟨10, 10⟩ system.trace := by
  let proof : ComptokenProof := ⟨[], [], [], 0, 0, 0, .targetBytesDevnet⟩
  obtain ⟨minted, retried, fetched, resized, mines, afterFull, afterFetch, afterResize, _, retires⟩ :=
    mineComptokens_of_full proof
  let atMint : Thread RpcState RpcAnswer Thrown (Reply String) := .waiting (.submitMiningProof proof) minted
  let atResize : ℕ → Thread RpcState RpcAnswer Thrown (Reply String) := fun count =>
    .waiting .turn fun _ => .await .turn fun _ => .await (.resizeUserDataAccount (count + 100)) (resized count)
  have first : Reachable (miningSemantics ⟨10, 10⟩) {}
      ⟨{}, [(0, .issued (.submitMiningProof proof)), (0, .started proof)], [atMint]⟩ :=
    Reachable.start .refl proof trivial (.await_of_eq mines)
  have asked : Reachable (miningSemantics ⟨10, 10⟩) {} ⟨{}, _, [atMint, atMint, atMint]⟩ :=
    (first.start proof trivial (.await_of_eq mines)).start proof trivial (.await_of_eq mines)
  have full : Reachable (miningSemantics ⟨10, 10⟩) {} ⟨{}, _, [_, _, _]⟩ :=
    ((asked.resume 0 rfl (.error capacityError) (full_admitted 0 {} (Nat.le_refl 10))
      (.await_of_eq afterFull)).resume 1 rfl (.error capacityError) (full_admitted 1 {} (Nat.le_refl 10))
        (.await_of_eq afterFull)).resume 2 rfl (.error capacityError) (full_admitted 2 {} (Nat.le_refl 10))
          (.await_of_eq afterFull)
  have stale : Reachable (miningSemantics ⟨10, 10⟩) {} ⟨{}, _, [atResize 10, _, _]⟩ :=
    ((full.resume 0 rfl () trivial .await).resume 0 rfl () trivial .await).resume
      0 rfl (.ok 10) (by rintro _ ⟨⟩; rfl) (.await_of_eq (afterFetch 10))
  have seen : Reachable (miningSemantics ⟨10, 10⟩) {} ⟨{}, _, [atResize 10, atResize 10, _]⟩ :=
    ((stale.resume 1 rfl () trivial .await).resume 1 rfl () trivial .await).resume
      1 rfl (.ok 10) (by rintro _ ⟨⟩; rfl) (.await_of_eq (afterFetch 10))
  have grown : Reachable (miningSemantics ⟨10, 10⟩) {} ⟨{}, _, [atResize 10, _, _]⟩ :=
    ((seen.resume 1 rfl () trivial .await).resume 1 rfl () trivial .await).resume
      1 rfl (.ok "resized") trivial (.await_of_eq (afterResize 10 "resized"))
  have retrying : Reachable (miningSemantics ⟨10, 10⟩) {} ⟨{}, _, [atResize 10, _, _]⟩ :=
    ((grown.resume 1 rfl () trivial .await).resume 1 rfl () trivial .await).resume
      1 rfl () trivial .await
  have minted : Reachable (miningSemantics ⟨10, 10⟩) {} ⟨{}, _, [atResize 10, _, _]⟩ :=
    retrying.resume 1 rfl (.ok "minted") ⟨fun _ => show (10 : ℕ) < 110 by decide, fun _ equal => by cases equal⟩
      (.await_of_eq retires)
  have seen' : Reachable (miningSemantics ⟨10, 10⟩) {} ⟨{}, _, [atResize 10, _, atResize 11]⟩ :=
    ((minted.resume 2 rfl () trivial .await).resume 2 rfl () trivial .await).resume
      2 rfl (.ok 11) (by rintro _ ⟨⟩; rfl) (.await_of_eq (afterFetch 11))
  have grown' : Reachable (miningSemantics ⟨10, 10⟩) {} ⟨{}, _, [atResize 10, _, _]⟩ :=
    ((seen'.resume 2 rfl () trivial .await).resume 2 rfl () trivial .await).resume
      2 rfl (.ok "resized") trivial (.await_of_eq (afterResize 11 "resized"))
  refine ⟨_, (grown'.resume 0 rfl () trivial .await).resume 0 rfl () trivial .await, ?_⟩
  intro grows
  have request := grows 0 (.issued (.resizeUserDataAccount 110)) _ List.suffix_rfl 110 rfl
  have granted := request.2 (2, .answered (.resizeUserDataAccount 111) (.ok "resized")) (by simp) 111 rfl
  omega

end ComptoMiningPool
