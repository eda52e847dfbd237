import Mathlib.Tactic

/-
This file models the local time of a time zone. A clock that is set back shows a local time twice, and a
clock that is set forward leaves local times out.
-/

namespace JavaScript

/-- A number of seconds in ascending order. -/
def seconds (first : ℤ) (count : ℕ) : List ℤ := (List.range count).map fun (index : ℕ) => first + (index : ℤ)

theorem mem_seconds {first second : ℤ} {count : ℕ} :
    second ∈ seconds first count ↔ first ≤ second ∧ second < first + count := by
  rw [seconds, List.mem_map]
  constructor
  · rintro ⟨index, inRange, rfl⟩
    have small := List.mem_range.mp inRange
    omega
  · intro bounds
    exact ⟨(second - first).toNat, List.mem_range.mpr (by omega), by omega⟩

/-- The seconds by which local time is ahead of universal time, at each second of universal time. -/
structure TimeZone where
  offset : ℤ → ℤ
  within : ∀ second, |offset second| < 86400

namespace TimeZone

variable (zone : TimeZone)

def localSecond (second : ℤ) : ℤ := second + zone.offset second

/-- The seconds that show a local second. -/
def instants (shown : ℤ) : List ℤ :=
  (seconds (shown - 86399) 172799).filter fun second => zone.localSecond second = shown

variable {zone} in
theorem mem_instants {shown second : ℤ} : second ∈ zone.instants shown ↔ zone.localSecond second = shown := by
  have within := abs_lt.mp (zone.within second)
  rw [instants, List.mem_filter, mem_seconds, decide_eq_true_iff, and_iff_right_iff_imp, localSecond]
  omega

/-- The local seconds before a local second. A second that shows one of the last two days is near. -/
def shownBefore (shown : ℤ) : List ℤ :=
  ((seconds (shown - 259199) 345598).map zone.localSecond).filter fun earlier => earlier < shown

theorem shownBefore_ne_nil (shown : ℤ) : zone.shownBefore shown ≠ [] := by
  have within := abs_lt.mp (zone.within (shown - 86400))
  apply @List.ne_nil_of_mem _ (zone.localSecond (shown - 86400))
  rw [shownBefore, List.mem_filter, decide_eq_true_iff]
  constructor
  · exact List.mem_map_of_mem (mem_seconds.mpr (by omega))
  · rw [localSecond]
    omega

/-- The latest local second that is shown before a local second. -/
def latestBefore (shown : ℤ) : ℤ := (zone.shownBefore shown).max (zone.shownBefore_ne_nil shown)

theorem instants_latestBefore (shown : ℤ) : zone.instants (zone.latestBefore shown) ≠ [] := by
  have member := List.max_mem (zone.shownBefore_ne_nil shown)
  obtain ⟨second, _, isShown⟩ := List.mem_map.mp (List.mem_filter.mp member).1
  exact List.ne_nil_of_mem (mem_instants.mpr isShown)

/-- The offset before the clock is set forward over a local second. -/
def offsetBefore (shown : ℤ) : ℤ :=
  zone.offset ((zone.instants (zone.latestBefore shown)).max (zone.instants_latestBefore shown))

/-- A local second that is shown twice is the first of its seconds. A local second that is left out is
counted from the offset before it. -/
def utc (shown : ℤ) : ℤ :=
  if found : zone.instants shown ≠ [] then (zone.instants shown).min found
  else shown - zone.offsetBefore shown

/-- No earlier second shows the local time of a second. -/
def ShownFirst (second : ℤ) : Prop := ∀ earlier < second, zone.localSecond earlier ≠ zone.localSecond second

variable {zone}

/-- The second of a local second is a second that shows it first, or no second shows it. -/
theorem utc_eq_iff {shown second : ℤ} :
    zone.utc shown = second ↔
      (zone.localSecond second = shown ∧ zone.ShownFirst second) ∨
        ((∀ other, zone.localSecond other ≠ shown) ∧ shown - zone.offsetBefore shown = second) := by
  rw [utc]
  split
  case isTrue found =>
      have notLeftOut : ¬ ∀ other, zone.localSecond other ≠ shown := by
        intro absent
        obtain ⟨other, member⟩ := List.exists_mem_of_ne_nil _ found
        exact absent other (mem_instants.mp member)
      rw [List.min_eq_iff, mem_instants, or_iff_left (fun leftOut => notLeftOut leftOut.1)]
      apply and_congr_right
      intro isShown
      subst isShown
      constructor
      · intro least earlier before same
        have later := least earlier (mem_instants.mpr same)
        omega
      · intro first other member
        by_contra before
        exact first other (by omega) (mem_instants.mp member)
  case isFalse leftOut =>
      have absent : ∀ other, zone.localSecond other ≠ shown := by
        intro other isShown
        exact leftOut (List.ne_nil_of_mem (mem_instants.mpr isShown))
      rw [or_iff_right (fun first => absent second first.1), and_iff_right absent]

/-- A second is found from its local time exactly when it shows it first. -/
theorem utc_localSecond {second : ℤ} : zone.utc (zone.localSecond second) = second ↔ zone.ShownFirst second := by
  rw [utc_eq_iff, and_iff_right rfl]
  exact or_iff_left fun leftOut => leftOut.1 second rfl

/-- A second is found from its universal time exactly when the zone agrees with it there. -/
theorem utc_self {second : ℤ} :
    zone.utc second = second ↔
      (zone.offset second = 0 ∧ zone.ShownFirst second) ∨
        ((∀ other, zone.localSecond other ≠ second) ∧ zone.offsetBefore second = 0) := by
  have agrees : zone.localSecond second = second ↔ zone.offset second = 0 := by
    rw [localSecond]
    omega
  have counts : second - zone.offsetBefore second = second ↔ zone.offsetBefore second = 0 := by omega
  rw [utc_eq_iff, agrees, counts]

/-- A local second and its second are less than a day apart. -/
theorem utc_near (shown : ℤ) : |zone.utc shown - shown| < 86400 := by
  rcases utc_eq_iff.mp (rfl : zone.utc shown = zone.utc shown) with ⟨isShown, _⟩ | ⟨_, counted⟩
  · have within := abs_lt.mp (zone.within (zone.utc shown))
    rw [localSecond] at isShown
    rw [abs_lt]
    omega
  · have within := abs_lt.mp (zone.within ((zone.instants (zone.latestBefore shown)).max
      (zone.instants_latestBefore shown)))
    rw [← offsetBefore] at within
    rw [abs_lt]
    omega

/-- The zone whose clock is never set. -/
def constant (offset : ℤ) (within : |offset| < 86400) : TimeZone := ⟨fun _ => offset, fun _ => within⟩

theorem utc_constant (offset : ℤ) (within : |offset| < 86400) (shown : ℤ) :
    (constant offset within).utc shown = shown - offset := by
  apply utc_eq_iff.mpr
  left
  constructor
  · exact Int.sub_add_cancel shown offset
  · intro earlier before same
    simp only [localSecond, constant] at same
    omega

end TimeZone

end JavaScript
