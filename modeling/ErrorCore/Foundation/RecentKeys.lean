import ErrorCore.Foundation.InsertionMap
import Mathlib.Data.List.Nodup
import Mathlib.Data.List.Perm.Subperm

/-!
# Maps of recent keys

A component remembers the time at which it last accepted a key, in a map that
gives up its first pair when it holds too many. A key that is accepted again
keeps its place, so that the first pair need not be the oldest.

The log of the accepted keys, the newest first, says what the map should
remember. `Anchored` holds of every map; `Complete` also holds as long as no
recent pair is given up before an older one.
-/

namespace RecentKeys

open InsertionMap

universe u
variable {κ : Type u} [DecidableEq κ]

/-- The keys accepted since a key was last accepted. -/
def since (key : κ) (log : List (κ × Int)) : List κ :=
  (log.map (·.1)).takeWhile fun other => other ≠ key

/-- `map.set(key, time)`, and the first pair goes when there are more than `cap`. -/
def insertCapped (cap : Nat) (map : List (κ × Int)) (key : κ) (time : Int) : List (κ × Int) :=
  if cap < (set map key time).length then (set map key time).tail else set map key time

section Maps

variable {map log : List (κ × Int)} {key other : κ} {time now : Int} {cap : Nat}
variable {entry : κ × Int}

theorem since_cons (entry : κ × Int) (log : List (κ × Int)) (key : κ) :
    since key (entry :: log) = if entry.1 = key then [] else entry.1 :: since key log := by
  unfold since
  rw [List.map_cons, List.takeWhile_cons]
  split <;> simp_all

theorem notMem_since : key ∉ since key log := by
  induction log with
  | nil => exact List.not_mem_nil
  | cons entry log ih =>
      rw [since_cons]
      split
      · exact List.not_mem_nil
      · next hne =>
          rw [List.mem_cons, not_or]
          exact ⟨fun heq => hne heq.symm, ih⟩

/-- A pair is given up only where a new key meets a full map. -/
theorem insertCapped_cases (key : κ) (time : Int) (hcap : 0 < cap) (hlength : map.length ≤ cap) :
    insertCapped cap map key time = set map key time ∧ (set map key time).length ≤ cap ∨
      ∃ oldest rest, map = oldest :: rest ∧ key ∉ map.map (·.1) ∧ map.length = cap ∧
        insertCapped cap map key time = rest ++ [(key, time)] := by
  by_cases hfull : cap < (set map key time).length
  · right
    have hnew : key ∉ map.map (·.1) := by
      intro hmem
      rw [length_set_of_mem hmem] at hfull
      omega
    rw [length_set hnew] at hfull
    cases map with
    | nil =>
        rw [List.length_nil] at hfull
        omega
    | cons oldest rest =>
        refine ⟨oldest, rest, rfl, hnew, by omega, ?_⟩
        unfold insertCapped
        rw [set_of_notMem hnew, if_pos]
        · rfl
        · rw [List.length_append, List.length_singleton]
          exact hfull
  · left
    exact ⟨if_neg hfull, by omega⟩

theorem mem_insertCapped (h : entry ∈ insertCapped cap map key time) :
    entry = (key, time) ∨ entry ∈ map ∧ entry.1 ≠ key := by
  unfold insertCapped at h
  split at h
  · exact mem_set (List.mem_of_mem_tail h)
  · exact mem_set h

end Maps

/-! ## What every map keeps -/

/-- The pairs of the map are the last times of their keys in the log. -/
structure Anchored (cap : Nat) (clock : Int) (map log : List (κ × Int)) : Prop where
  nodup : (map.map (·.1)).Nodup
  length_le : map.length ≤ cap
  anchors : ∀ entry ∈ map, get? log entry.1 = some entry.2
  sorted : log.Pairwise fun newer older => older.2 ≤ newer.2
  past : ∀ entry ∈ log, entry.2 ≤ clock

namespace Anchored

variable {cap : Nat} {clock now : Int} {map log : List (κ × Int)} {key : κ}

theorem nil : Anchored cap clock ([] : List (κ × Int)) [] where
  nodup := List.nodup_nil
  length_le := Nat.zero_le cap
  anchors := by intro entry hmem; cases hmem
  sorted := List.Pairwise.nil
  past := by intro entry hmem; cases hmem

theorem advance (h : Anchored cap clock map log) (hclock : clock ≤ now) :
    Anchored cap now map log :=
  ⟨h.nodup, h.length_le, h.anchors, h.sorted,
    fun entry hmem => Int.le_trans (h.past entry hmem) hclock⟩

theorem insert (h : Anchored cap clock map log) (hcap : 0 < cap) (hclock : clock ≤ now) :
    Anchored cap now (insertCapped cap map key now) ((key, now) :: log) := by
  constructor
  · unfold insertCapped
    split
    · rw [List.map_tail]
      exact (nodup_keys_set h.nodup).tail
    · exact nodup_keys_set h.nodup
  · rcases insertCapped_cases key now hcap h.length_le with
      ⟨heq, hle⟩ | ⟨oldest, rest, hmap, -, hfull, heq⟩
    · rw [heq]
      exact hle
    · rw [heq, List.length_append, List.length_singleton, ← List.length_cons, ← hmap]
      exact h.length_le
  · intro entry hmem
    rw [get?_cons]
    rcases mem_insertCapped hmem with rfl | ⟨hold, hne⟩
    · rw [if_pos rfl]
    · rw [if_neg (Ne.symm hne)]
      exact h.anchors entry hold
  · rw [List.pairwise_cons]
    exact ⟨fun older hmem => Int.le_trans (h.past older hmem) hclock, h.sorted⟩
  · intro entry hmem
    rcases List.mem_cons.mp hmem with rfl | hmem
    · exact Int.le_refl _
    · exact Int.le_trans (h.past entry hmem) hclock

end Anchored

/-! ## What a map keeps that gives up old pairs only -/

section Since

variable {log : List (κ × Int)} {key other : κ} {time : Int}

/-- What was accepted since is not older. -/
theorem le_of_mem_since (hsorted : log.Pairwise fun newer older => older.2 ≤ newer.2)
    (htime : get? log key = some time) (hmem : other ∈ since key log) :
    ∃ later, get? log other = some later ∧ time ≤ later := by
  induction log with
  | nil => cases hmem
  | cons entry log ih =>
      rw [List.pairwise_cons] at hsorted
      rw [since_cons] at hmem
      rw [get?_cons] at htime
      split at hmem
      · cases hmem
      · next hne =>
          rw [if_neg hne] at htime
          rw [get?_cons]
          split
          · exact ⟨entry.2, rfl, hsorted.1 _ (mem_of_get?_eq_some htime)⟩
          · next hother =>
              rcases List.mem_cons.mp hmem with heq | hmem
              · exact absurd heq.symm hother
              · exact ih hsorted.2 htime hmem

/-- Of two keys only one was accepted after the other. -/
theorem since_asymm (hmem : other ∈ since key log) : key ∉ since other log := by
  induction log with
  | nil => cases hmem
  | cons entry log ih =>
      rw [since_cons] at hmem ⊢
      split at hmem
      · cases hmem
      · next hkey =>
          split
          · exact List.not_mem_nil
          · next hother =>
              rw [List.mem_cons, not_or]
              refine ⟨fun heq => hkey heq.symm, ih ?_⟩
              rcases List.mem_cons.mp hmem with heq | hmem
              · exact absurd heq.symm hother
              · exact hmem

/-- Any time of a key is bounded by its last one, and no fewer keys were accepted since. -/
theorem last_of_append {earlier later : List (κ × Int)}
    (hsorted : (later ++ (key, time) :: earlier).Pairwise fun newer older => older.2 ≤ newer.2) :
    ∃ last, get? (later ++ (key, time) :: earlier) key = some last ∧ time ≤ last ∧
      (since key (later ++ (key, time) :: earlier)).length ≤
        (later.filter fun entry => entry.1 ≠ key).length := by
  induction later with
  | nil =>
      refine ⟨time, ?_, Int.le_refl _, ?_⟩
      · rw [List.nil_append, get?_cons, if_pos rfl]
      · rw [List.nil_append, since_cons, if_pos rfl]
        exact Nat.zero_le _
  | cons entry later ih =>
      rw [List.cons_append, List.pairwise_cons] at hsorted
      obtain ⟨last, hlast, hle, hlength⟩ := ih hsorted.2
      rw [List.cons_append, get?_cons, since_cons, List.filter_cons]
      by_cases hkey : entry.1 = key
      · refine ⟨entry.2, if_pos hkey, ?_, ?_⟩
        · exact hsorted.1 (key, time) (List.mem_append_right _ List.mem_cons_self)
        · rw [if_pos hkey]
          exact Nat.zero_le _
      · refine ⟨last, (if_neg hkey).trans hlast, hle, ?_⟩
        rw [if_neg hkey, if_pos (by simpa using hkey), List.length_cons, List.length_cons]
        omega

/-- The last time of a key is followed by what was accepted since. -/
theorem exists_append_of_get? (htime : get? log key = some time) :
    ∃ later earlier, log = later ++ (key, time) :: earlier ∧
      (later.filter fun entry => entry.1 ≠ key).length = (since key log).length := by
  induction log with
  | nil => cases htime
  | cons entry log ih =>
      rw [get?_cons] at htime
      rw [since_cons]
      by_cases hkey : entry.1 = key
      · rw [if_pos hkey] at htime ⊢
        refine ⟨[], log, ?_, rfl⟩
        rw [List.nil_append, ← hkey, ← Option.some.inj htime]
      · rw [if_neg hkey] at htime ⊢
        obtain ⟨later, earlier, rfl, hlength⟩ := ih htime
        refine ⟨entry :: later, earlier, rfl, ?_⟩
        rw [List.filter_cons, if_pos (by simpa using hkey), List.length_cons, List.length_cons,
          hlength]

end Since

/-- The pair that an insertion gives up is expired, or older than the others of the map. -/
def EvictsOldest (cap width : Nat) (log : List (κ × Int)) (key : κ) (now : Int) :
    List (κ × Int) → Prop
  | [] => True
  | oldest :: rest =>
      key ∉ (oldest :: rest).map (·.1) → (oldest :: rest).length = cap →
        width ≤ now - oldest.2 ∨ ∀ other ∈ rest, other.1 ∈ since oldest.1 log

/-- A key is still in the map while it is recent, and so are the keys accepted since. -/
structure Complete (cap width : Nat) (clock : Int) (map log : List (κ × Int)) : Prop where
  kept : ∀ key time, get? log key = some time → clock - time < width →
    (since key log).length < cap → key ∈ map.map (·.1)
  distinct : ∀ entry ∈ map, clock - entry.2 < width →
    (since entry.1 log).Nodup ∧ ∀ other ∈ since entry.1 log, other ∈ map.map (·.1)

namespace Complete

variable {cap width : Nat} {clock now : Int} {map log : List (κ × Int)} {key : κ}

theorem nil : Complete cap width clock ([] : List (κ × Int)) [] where
  kept := by intro key time htime; cases htime
  distinct := by intro entry hmem; cases hmem

theorem advance (h : Complete cap width clock map log) (hclock : clock ≤ now) :
    Complete cap width now map log where
  kept := by
    intro key time htime hrecent
    exact h.kept key time htime (by omega)
  distinct := by
    intro entry hmem hrecent
    exact h.distinct entry hmem (by omega)

/-- A key that is accepted is not among those accepted since a recent one. -/
theorem notMem_since_of_fresh (h : Complete cap width clock map log)
    (ha : Anchored cap clock map log) (hclock : clock ≤ now)
    (hfresh : ∀ time, get? map key = some time → width ≤ now - time)
    {entry : κ × Int} (hmem : entry ∈ map) (hrecent : now - entry.2 < width) :
    key ∉ since entry.1 log := by
  intro hsince
  have hkey : key ∈ map.map (·.1) := (h.distinct entry hmem (by omega)).2 key hsince
  obtain ⟨pair, hpair, rfl⟩ := List.mem_map.mp hkey
  obtain ⟨later, hlater, hle⟩ := le_of_mem_since ha.sorted (ha.anchors entry hmem) hsince
  have hlast : pair.2 = later := Option.some.inj ((ha.anchors pair hpair).symm.trans hlater)
  have hold := hfresh pair.2 (get?_eq_some_of_mem ha.nodup hpair)
  omega

/-- A map with room, or with the key in it, gives up nothing. -/
theorem insert_of_room (h : Complete cap width clock map log)
    (ha : Anchored cap clock map log) (hclock : clock ≤ now)
    (hfresh : ∀ time, get? map key = some time → width ≤ now - time) :
    Complete cap width now (set map key now) ((key, now) :: log) := by
  constructor
  · intro other time htime hrecent hlength
    rw [get?_cons] at htime
    rw [since_cons] at hlength
    split at htime
    · next hkey => exact hkey ▸ mem_keys_set_self
    · next hkey =>
        rw [if_neg hkey, List.length_cons] at hlength
        exact mem_keys_set (h.kept other time htime (by omega) (by omega))
  · intro entry hmem hrecent
    rw [since_cons]
    rcases mem_set hmem with rfl | ⟨hold, hne⟩
    · rw [if_pos rfl]
      exact ⟨List.nodup_nil, fun other hother => by cases hother⟩
    · rw [if_neg (Ne.symm hne), List.nodup_cons]
      obtain ⟨hnodup, hsub⟩ := h.distinct entry hold (by omega)
      refine ⟨⟨h.notMem_since_of_fresh ha hclock hfresh hold hrecent, hnodup⟩, ?_⟩
      intro other hother
      rcases List.mem_cons.mp hother with rfl | hother
      · exact mem_keys_set_self
      · exact mem_keys_set (hsub other hother)

/-- Only an expired pair is given up, or one that as many keys follow as the map can hold. -/
theorem insert_of_full {oldest : κ × Int} {rest : List (κ × Int)}
    (h : Complete cap width clock (oldest :: rest) log)
    (ha : Anchored cap clock (oldest :: rest) log) (hclock : clock ≤ now)
    (hfresh : ∀ time, get? (oldest :: rest) key = some time → width ≤ now - time)
    (hnew : key ∉ (oldest :: rest).map (·.1)) (hfull : (oldest :: rest).length = cap)
    (hguard : width ≤ now - oldest.2 ∨ ∀ other ∈ rest, other.1 ∈ since oldest.1 log) :
    Complete cap width now (rest ++ [(key, now)]) ((key, now) :: log) := by
  have hnodup := ha.nodup
  rw [List.map_cons, List.nodup_cons] at hnodup
  constructor
  · intro other time htime hrecent hlength
    rw [List.map_append, List.mem_append]
    rw [get?_cons] at htime
    rw [since_cons] at hlength
    split at htime
    · next hkey =>
        right
        rw [← hkey]
        exact List.mem_cons_self
    · next hkey =>
        left
        rw [if_neg hkey, List.length_cons] at hlength
        have hmem := h.kept other time htime (by omega) (by omega)
        rw [List.map_cons, List.mem_cons] at hmem
        rcases hmem with rfl | hmem
        · -- the pair given up: expired, or all others of the map were accepted since
          have hlast := (ha.anchors oldest List.mem_cons_self).symm.trans htime
          rcases hguard with hexpired | hsince
          · have := Option.some.inj hlast
            omega
          · have hsub : rest.map (·.1) ⊆ since oldest.1 log := by
              intro other hother
              obtain ⟨pair, hpair, rfl⟩ := List.mem_map.mp hother
              exact hsince pair hpair
            have hle := (hnodup.2.subperm hsub).length_le
            rw [List.length_map] at hle
            rw [List.length_cons] at hfull
            omega
        · exact hmem
  · intro entry hmem hrecent
    rw [since_cons]
    rcases List.mem_append.mp hmem with hold | hself
    · have hentry : entry ∈ oldest :: rest := List.mem_cons_of_mem _ hold
      have hne : key ≠ entry.1 := by
        rintro rfl
        exact hnew (List.mem_map_of_mem hentry)
      rw [if_neg hne, List.nodup_cons]
      obtain ⟨hdistinct, hsub⟩ := h.distinct entry hentry (by omega)
      refine ⟨⟨h.notMem_since_of_fresh ha hclock hfresh hentry hrecent, hdistinct⟩, ?_⟩
      intro other hother
      rw [List.map_append, List.mem_append]
      rcases List.mem_cons.mp hother with rfl | hother
      · exact .inr List.mem_cons_self
      · have hold' := hsub other hother
        rw [List.map_cons, List.mem_cons] at hold'
        rcases hold' with rfl | hold'
        · exfalso
          obtain ⟨later, hlater, hle⟩ :=
            le_of_mem_since ha.sorted (ha.anchors entry hentry) hother
          have hlast : oldest.2 = later :=
            Option.some.inj ((ha.anchors oldest List.mem_cons_self).symm.trans hlater)
          rcases hguard with hexpired | hsince
          · omega
          · exact since_asymm hother (hsince entry hold)
        · exact .inl hold'
    · rw [List.mem_singleton.mp hself, if_pos rfl]
      exact ⟨List.nodup_nil, fun other hother => by cases hother⟩

theorem insert (h : Complete cap width clock map log) (ha : Anchored cap clock map log)
    (hcap : 0 < cap) (hclock : clock ≤ now)
    (hfresh : ∀ time, get? map key = some time → width ≤ now - time)
    (hevict : EvictsOldest cap width log key now map) :
    Complete cap width now (insertCapped cap map key now) ((key, now) :: log) := by
  rcases insertCapped_cases key now hcap ha.length_le with
    ⟨heq, -⟩ | ⟨oldest, rest, rfl, hnew, hfull, heq⟩
  · rw [heq]
    exact h.insert_of_room ha hclock hfresh
  · rw [heq]
    exact h.insert_of_full ha hclock hfresh hnew hfull (hevict hnew hfull)

/-- Giving up any other pair leaves out a key that too few have followed. -/
theorem evictsOldest_of_kept (h : Complete cap width clock map log)
    (ha : Anchored cap clock map log) (hcap : 0 < cap) (hclock : clock ≤ now)
    (hkept : ∀ other time, get? ((key, now) :: log) other = some time → now - time < width →
      (since other ((key, now) :: log)).length < cap →
        other ∈ (insertCapped cap map key now).map (·.1)) :
    EvictsOldest cap width log key now map := by
  rcases insertCapped_cases key now hcap ha.length_le with
    ⟨-, hle⟩ | ⟨oldest, rest, rfl, hnew, hfull, heq⟩
  · cases map with
    | nil => trivial
    | cons oldest rest =>
        intro hnew hfull
        rw [length_set hnew, hfull] at hle
        omega
  · intro _ _
    by_contra hcontra
    rw [not_or] at hcontra
    obtain ⟨hrecent, hsince⟩ := hcontra
    apply hsince
    by_contra hmissing
    push Not at hmissing
    obtain ⟨other, hother, hnot⟩ := hmissing
    have hnodup := ha.nodup
    rw [List.map_cons, List.nodup_cons] at hnodup
    have hne : key ≠ oldest.1 := by
      rintro rfl
      exact hnew List.mem_cons_self
    obtain ⟨hdistinct, hsub⟩ := h.distinct oldest List.mem_cons_self (by omega)
    -- what was accepted since is in the rest of the map, which holds another key besides
    have hshort : (other.1 :: since oldest.1 log) ⊆ rest.map (·.1) := by
      intro k hk
      rcases List.mem_cons.mp hk with rfl | hk
      · exact List.mem_map_of_mem hother
      · have hmem := hsub k hk
        rw [List.map_cons, List.mem_cons] at hmem
        rcases hmem with rfl | hmem
        · exact absurd hk notMem_since
        · exact hmem
    have hle := ((List.nodup_cons.mpr ⟨hnot, hdistinct⟩).subperm hshort).length_le
    rw [List.length_cons, List.length_map] at hle
    rw [List.length_cons] at hfull
    have hmem := hkept oldest.1 oldest.2
      (by rw [get?_cons, if_neg hne, ha.anchors oldest List.mem_cons_self]) (by omega)
      (by rw [since_cons, if_neg hne, List.length_cons]; omega)
    rw [heq, List.map_append, List.mem_append] at hmem
    rcases hmem with hmem | hmem
    · exact hnodup.1 hmem
    · exact hne (List.mem_singleton.mp hmem).symm

end Complete

end RecentKeys
