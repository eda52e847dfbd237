import ComptoMiningPool.Async.Interleaving

/-
This file connects two parties by a channel that delivers in order. It proves that a party receives only what
the other one had sent before.
-/

namespace Async

/-- A party takes steps of its own. Its record grows, newest entry first, and an entry may send or receive a
message. -/
structure Party (Sent Received : Type) where
  Config : Type
  Entry : Type
  initial : Config
  step : Config → Config → Prop
  record : Config → List Entry
  sends : Entry → Option Sent
  receives : Entry → Option Received
  fresh : record initial = []
  grows : ∀ {before after}, step before after → record before <:+ record after

/-- Distinct messages come from one entry each. -/
theorem eq_of_filterMap_nodup {Entry Message : Type} {read : Entry → Option Message} {entries : List Entry}
    (distinct : (entries.filterMap read).Nodup) {first second : Entry} (one : first ∈ entries) (two : second ∈ entries)
    {message : Message} (readsOne : read first = some message) (readsTwo : read second = some message) :
    first = second := by
  induction entries with
  | nil => cases one
  | cons entry entries ih =>
      have rest : (entries.filterMap read).Nodup := ((List.suffix_cons _ _).filterMap read).sublist.nodup distinct
      have newest : ∀ {other}, read entry = some message → other ∈ entries → read other ≠ some message := by
        intro other reads member same
        rw [List.filterMap_cons_some reads] at distinct
        exact (List.nodup_cons.mp distinct).1 (List.mem_filterMap.mpr ⟨other, member, same⟩)
      rcases List.mem_cons.mp one with rfl | oneOlder
      · rcases List.mem_cons.mp two with rfl | twoOlder
        · rfl
        · exact absurd readsTwo (newest readsOne twoOlder)
      · rcases List.mem_cons.mp two with rfl | twoOlder
        · exact absurd readsOne (newest readsTwo oneOlder)
        · exact ih rest oneOlder twoOlder

namespace Party

variable {Sent Received : Type} (party : Party Sent Received)

/-- The messages that the party has sent, newest first. -/
def sent (config : party.Config) : List Sent := (party.record config).filterMap party.sends

/-- The messages that the party has received, newest first. -/
def received (config : party.Config) : List Received := (party.record config).filterMap party.receives

/-- A configuration is reached by the steps of the party alone. -/
def Reached (config : party.Config) : Prop := Relation.ReflTransGen party.step party.initial config

variable {party} {before after : party.Config}

theorem sent_suffix (step : party.step before after) : party.sent before <:+ party.sent after :=
  (party.grows step).filterMap _

theorem received_initial : party.received party.initial = [] := by
  rw [received, party.fresh]
  rfl

end Party

/-- Two parties face each other, and each one sends what the other receives. -/
structure Link {M N : Type} (near : Party M N) (far : Party N M) where
  near : near.Config
  far : far.Config

namespace Link

variable {M N : Type} {near : Party M N} {far : Party N M}

def initial (near : Party M N) (far : Party N M) : Link near far := ⟨near.initial, far.initial⟩

/-- A party steps when its messages are the oldest ones that the other party has sent. -/
inductive Step : Link near far → Link near far → Prop where
  | near {link : Link near far} {after : near.Config} (step : near.step link.near after)
      (delivered : near.received after <:+ far.sent link.far) : Step link { link with near := after }
  | far {link : Link near far} {after : far.Config} (step : far.step link.far after)
      (delivered : far.received after <:+ near.sent link.near) : Step link { link with far := after }

/-- A link is reachable when finitely many steps of its parties lead to it. -/
def Reachable (link : Link near far) : Prop := Relation.ReflTransGen Step (initial near far) link

def swap (link : Link near far) : Link far near := ⟨link.far, link.near⟩

theorem Step.swap {before after : Link near far} (step : Step before after) :
    Step before.swap after.swap := by
  cases step with
  | near step delivered => exact .far step delivered
  | far step delivered => exact .near step delivered

theorem Reachable.swap {link : Link near far} (reached : link.Reachable) : link.swap.Reachable := by
  induction reached with
  | refl => exact .refl
  | tail _ step ih => exact ih.tail step.swap

/-- A party of a link takes its own steps. -/
theorem Reachable.near_reached {link : Link near far} (reached : link.Reachable) : near.Reached link.near := by
  induction reached with
  | refl => exact .refl
  | tail _ step ih =>
      cases step with
      | near step delivered => exact ih.tail step
      | far step delivered => exact ih

theorem Reachable.far_reached {link : Link near far} (reached : link.Reachable) : far.Reached link.far :=
  reached.swap.near_reached

/-- The received messages are the oldest sent ones, in their order. -/
theorem Reachable.in_order {link : Link near far} (reached : link.Reachable) :
    near.received link.near <:+ far.sent link.far := by
  induction reached with
  | refl =>
      change near.received near.initial <:+ _
      rw [Party.received_initial]
      exact List.nil_suffix
  | tail _ step ih =>
      cases step with
      | near step delivered => exact delivered
      | far step delivered => exact ih.trans (Party.sent_suffix step)

/-- A party receives a message once when the other one sends it once. -/
theorem Reachable.eq_of_received {link : Link near far} (reached : link.Reachable)
    (distinct : (far.sent link.far).Nodup) {first second : near.Entry} (one : first ∈ near.record link.near)
    (two : second ∈ near.record link.near) {message : N} (receivesOne : near.receives first = some message)
    (receivesTwo : near.receives second = some message) : first = second :=
  eq_of_filterMap_nodup (reached.in_order.sublist.nodup distinct) one two receivesOne receivesTwo

/-- A received message was sent in an earlier link, in which the receiver had not received it yet. -/
theorem Reachable.exists_before {link : Link near far} (reached : link.Reachable) {entry : near.Entry}
    {earlier : List near.Entry} (suffix : entry :: earlier <:+ near.record link.near) {message : N}
    (receives : near.receives entry = some message) :
    ∃ before : Link near far, before.Reachable ∧ near.record before.near <:+ earlier ∧
      far.record before.far <:+ far.record link.far ∧ message ∈ far.sent before.far := by
  induction reached with
  | refl =>
      rw [show near.record (initial near far).near = [] from near.fresh] at suffix
      cases List.suffix_nil.mp suffix
  | @tail before _ reached step ih =>
      cases step with
      | far step delivered =>
          obtain ⟨first, reachable, nearSuffix, farSuffix, sent⟩ := ih suffix
          exact ⟨first, reachable, nearSuffix, farSuffix.trans (far.grows step), sent⟩
      | @near after step delivered =>
          rcases List.suffix_or_suffix_of_suffix suffix (near.grows step) with older | newer
          · exact ih older
          · rcases List.suffix_cons_iff.mp newer with same | within
            · exact ih (same ▸ List.suffix_rfl)
            · refine ⟨before, reached, within, List.suffix_rfl, delivered.subset ?_⟩
              exact List.mem_filterMap.mpr ⟨entry, suffix.subset List.mem_cons_self, receives⟩

/-- A party goes on alone while the other one has sent what it receives. -/
theorem Reachable.near_steps {link : Link near far} (reached : link.Reachable) {after : near.Config}
    (steps : Relation.ReflTransGen near.step link.near after)
    (delivered : near.received after <:+ far.sent link.far) : Reachable { link with near := after } := by
  induction steps with
  | refl => exact reached
  | tail _ step ih =>
      have older := (near.grows step).filterMap near.receives
      exact (ih (older.trans delivered)).tail (.near step delivered)

theorem Reachable.far_steps {link : Link near far} (reached : link.Reachable) {after : far.Config}
    (steps : Relation.ReflTransGen far.step link.far after)
    (delivered : far.received after <:+ near.sent link.near) : Reachable { link with far := after } :=
  (reached.swap.near_steps steps delivered).swap

end Link

section Systems

variable {S C E V L M N : Type} {A : C → Type} {rules : Semantics S A E V L}

/-- A step only adds events. -/
theorem Step.trace_suffix {before after : System S A E V L} (step : Step rules before after) :
    before.trace <:+ after.trace := by
  cases step with
  | start label enabled segment =>
      obtain ⟨added, rfl, _⟩ := segment.added
      exact (List.suffix_cons _ _).trans (List.suffix_append _ _)
  | resume index waiting answer admitted segment =>
      obtain ⟨added, rfl, _⟩ := segment.added
      exact (List.suffix_cons _ _).trans (List.suffix_append _ _)
  | disturb state' disturbed => exact List.suffix_rfl

/-- A system is a party whose record is its trace. -/
def Semantics.party (rules : Semantics S A E V L) (initial : S) (sends : Event A L → Option M)
    (receives : Event A L → Option N) : Party M N where
  Config := System S A E V L
  Entry := Nat × Event A L
  initial := ⟨initial, [], []⟩
  step := Step rules
  record := System.trace
  sends pair := sends pair.2
  receives pair := receives pair.2
  fresh := rfl
  grows := Step.trace_suffix

variable {initial : S} {sends : Event A L → Option M} {receives : Event A L → Option N}

theorem Semantics.party_reached {system : System S A E V L} :
    (rules.party initial sends receives).Reached system ↔ Reachable rules initial system := Iff.rfl

theorem Semantics.mem_sent {system : System S A E V L} {message : M} :
    message ∈ (rules.party initial sends receives).sent system ↔
      ∃ me event, (me, event) ∈ system.trace ∧ sends event = some message := by
  constructor
  · intro member
    obtain ⟨⟨me, event⟩, inside, sent⟩ := List.mem_filterMap.mp member
    exact ⟨me, event, inside, sent⟩
  · rintro ⟨me, event, inside, sent⟩
    exact List.mem_filterMap.mpr ⟨(me, event), inside, sent⟩

theorem Semantics.mem_received {system : System S A E V L} {message : N} :
    message ∈ (rules.party initial sends receives).received system ↔
      ∃ me event, (me, event) ∈ system.trace ∧ receives event = some message := by
  constructor
  · intro member
    obtain ⟨⟨me, event⟩, inside, received⟩ := List.mem_filterMap.mp member
    exact ⟨me, event, inside, received⟩
  · rintro ⟨me, event, inside, received⟩
    exact List.mem_filterMap.mpr ⟨(me, event), inside, received⟩

end Systems

end Async
