import ErrorCore.Foundation.Retention
import ErrorCore.Foundation.Text
import ErrorCore.Foundation.Transition
import Mathlib.Algebra.Group.Nat.Defs
import Mathlib.Data.List.Lex
import Mathlib.Data.List.Perm.Basic
import Mathlib.Data.List.Sort

/-!
# Backups by name

The file transport, the dead-letter store and the local event store rename a
file that has become too large to `<file>.<time>-<number>.bak` and then delete
all but the last backups in the order of their names. The number is counted by
the instance and is not padded, so the order of the names is that of the
rotations only as long as neither part of the name gets another digit between
two rotations that it has to tell apart.

`Rotations` is what the three have in common: the backups that are there and
the rotations so far. `always_retained_iff` says for any component that moves
this way in which of its runs the newest backups are kept.
-/

namespace ErrorCore.Backups

universe u

/-! ## Names -/

/-- The time and the number in the name of a backup. -/
structure Stamp where
  now : Nat
  seq : Nat
  deriving DecidableEq, Repr

/-- `${now}-${seq}.bak`. -/
def Stamp.text (stamp : Stamp) : Text :=
  Nat.toDigits 10 stamp.now ++ '-' :: (Nat.toDigits 10 stamp.seq ++ (".bak" : Text))

def name (base : Text) (stamp : Stamp) : Text := base ++ '.' :: stamp.text

/-- What `sort` compares of two names. -/
def Stamp.sortKey (stamp : Stamp) : List Nat := Text.utf16Units stamp.text

theorem dash_notMem_toDigits (n : Nat) : '-' ∉ Nat.toDigits 10 n := by
  intro hmem
  have hdigit := Nat.isDigit_of_mem_toDigits (by decide) (by decide) hmem
  revert hdigit
  decide

theorem toDigits_injective {m n : Nat} (h : Nat.toDigits 10 m = Nat.toDigits 10 n) : m = n := by
  rw [← Nat.ofDigitChars_ten_toDigits (n := m), h, Nat.ofDigitChars_ten_toDigits]

theorem Stamp.text_injective {a b : Stamp} (h : a.text = b.text) : a = b := by
  obtain ⟨hnow, hseq⟩ := Text.cut_unique h (by
    rw [List.count_eq_zero_of_not_mem (dash_notMem_toDigits a.now),
      List.count_eq_zero_of_not_mem (dash_notMem_toDigits b.now)])
  cases a
  cases b
  simp only [Stamp.mk.injEq]
  exact ⟨toDigits_injective hnow, toDigits_injective (List.append_cancel_right hseq)⟩

theorem name_injective {base : Text} {a b : Stamp} (h : name base a = name base b) : a = b :=
  Stamp.text_injective (List.cons.inj (List.append_cancel_left h)).2

/-! ## The order of the names -/

theorem utf16Units_append (a b : Text) :
    Text.utf16Units (a ++ b) = Text.utf16Units a ++ Text.utf16Units b :=
  List.flatMap_append

theorem utf16Units_of_lt {text : Text} (h : ∀ c ∈ text, c.toNat < 0x10000) :
    Text.utf16Units text = text.map Char.toNat := by
  induction text with
  | nil => rfl
  | cons c rest ih =>
      rw [Text.utf16Units, List.flatMap_cons, if_pos (h c List.mem_cons_self)]
      exact congrArg (c.toNat :: ·) (ih fun d hd => h d (List.mem_cons_of_mem _ hd))

theorem isDigit_toNat {c : Char} (h : c.isDigit = true) : 48 ≤ c.toNat ∧ c.toNat ≤ 57 := by
  simpa [Char.isDigit, UInt32.le_iff_toNat_le] using h

/-- The code of every character of a stamp is a unit of its own. -/
theorem Stamp.ascii (stamp : Stamp) : ∀ c ∈ stamp.text, c.toNat < 0x10000 := by
  have hdigits (n : Nat) : ∀ c ∈ Nat.toDigits 10 n, c.toNat < 0x10000 := by
    intro c hc
    have := (isDigit_toNat (Nat.isDigit_of_mem_toDigits (by decide) (by decide) hc)).2
    omega
  intro c hc
  rcases List.mem_append.mp hc with hnow | hrest
  · exact hdigits _ c hnow
  rcases List.mem_cons.mp hrest with rfl | hrest
  · decide
  rcases List.mem_append.mp hrest with hseq | hend
  · exact hdigits _ c hseq
  · have hsuffix : c ∈ ['.', 'b', 'a', 'k'] := hend
    rw [List.mem_cons, List.mem_cons, List.mem_cons, List.mem_singleton] at hsuffix
    obtain rfl | rfl | rfl | rfl := hsuffix
    · decide
    · decide
    · decide
    · decide

theorem Stamp.sortKey_eq (stamp : Stamp) : stamp.sortKey = stamp.text.map Char.toNat :=
  utf16Units_of_lt stamp.ascii

theorem Stamp.sortKey_injective {a b : Stamp} (h : a.sortKey = b.sortKey) : a = b := by
  rw [sortKey_eq, sortKey_eq] at h
  have hinj : Function.Injective Char.toNat := fun a b hab => Char.toNat_inj.mp hab
  exact text_injective (List.map_injective_iff.mpr hinj h)

theorem append_lt_append_iff {start a b : List Nat} : start ++ a < start ++ b ↔ a < b := by
  induction start with
  | nil => exact Iff.rfl
  | cons n start ih => simpa [List.cons_lt_cons_iff] using ih

/-- `a` comes no later than `b` in the sorted names. -/
def NameLe (a b : Text) : Prop := Text.utf16Units a ≤ Text.utf16Units b

/-- Of names with one base, `sort` compares the stamps. -/
theorem nameLe_name_iff {base : Text} {a b : Stamp} :
    NameLe (name base a) (name base b) ↔ a.sortKey ≤ b.sortKey := by
  have hcons (stamp : Stamp) : Text.utf16Units (name base stamp) =
      (Text.utf16Units base ++ ['.'.toNat]) ++ stamp.sortKey := by
    rw [name, utf16Units_append, List.append_assoc]
    rfl
  rw [NameLe, hcons, hcons, ← not_lt, ← not_lt, append_lt_append_iff]

/-! ## Cleaning up -/

/-- `names.sort().reverse()`. -/
def newestFirst (names : List Text) : List Text :=
  (names.insertionSort fun a b => Text.utf16Units a ≤ Text.utf16Units b).reverse

/-- Deleting what comes after the limit keeps the greatest names. -/
theorem keepsGreatest_of_delete {φ : Type u} {limit : Nat} {backups : List (Text × φ)}
    (hnodup : (backups.map (·.1)).Nodup) :
    Retention.KeepsGreatest (fun a b : Text × φ => NameLe a.1 b.1) limit backups
      (backups.filter fun backup =>
        backup.1 ∉ (newestFirst (backups.map (·.1))).drop limit) := by
  let le (a b : Text × φ) : Prop := Text.utf16Units a.1 ≤ Text.utf16Units b.1
  let sorted := (backups.insertionSort le).reverse
  have htotal : Std.Total le := ⟨fun a b => le_total _ _⟩
  have htrans : IsTrans _ le := ⟨fun _ _ _ hab hbc => le_trans hab hbc⟩
  have hperm : sorted.Perm backups :=
    (List.reverse_perm _).trans (List.perm_insertionSort _ _)
  have hsorted : sorted.Pairwise (fun a b => le b a) :=
    List.pairwise_reverse.mpr (List.pairwise_insertionSort le backups)
  have hnames : newestFirst (backups.map (·.1)) = sorted.map (·.1) := by
    rw [newestFirst, List.map_reverse]
    congr 1
    exact (List.map_insertionSort le (fun a b => Text.utf16Units a ≤ Text.utf16Units b) _ _
      fun a _ b _ => Iff.rfl).symm
  have hdistinct : (sorted.map (·.1)).Nodup := (hperm.map _).nodup_iff.mpr hnodup
  refine ⟨sorted, hperm, hsorted, ?_⟩
  have hfirst : (sorted.filter fun backup => backup.1 ∉ (sorted.map (·.1)).drop limit) =
      sorted.take limit := by
    rw [← Retention.filter_notMem_drop hdistinct limit]
    exact List.filter_congr fun _ _ => decide_eq_decide.mpr Iff.rfl
  rw [hnames, ← hfirst]
  exact hperm.symm.filter _

/-! ## Numbers of as many digits -/

theorem ofDigitChars_lt {digits : List Char} (h : ∀ c ∈ digits, c.isDigit = true) (start : Nat) :
    Nat.ofDigitChars 10 digits start < 10 ^ digits.length * (start + 1) := by
  induction digits generalizing start with
  | nil => simp
  | cons c digits ih =>
      have hdigit := (isDigit_toNat (h c List.mem_cons_self)).2
      have hrest := ih (fun d hd => h d (List.mem_cons_of_mem _ hd))
        (10 * start + (c.toNat - '0'.toNat))
      rw [Nat.ofDigitChars_cons, List.length_cons, Nat.pow_succ, Nat.mul_assoc]
      apply Nat.lt_of_lt_of_le hrest
      apply Nat.mul_le_mul_left
      have hzero : '0'.toNat = 48 := rfl
      omega

/-- Texts of equally many digits are in the order of their numbers. -/
theorem map_toNat_lt {a b : List Char} (ha : ∀ c ∈ a, c.isDigit = true)
    (hb : ∀ c ∈ b, c.isDigit = true) (hlength : a.length = b.length) (start : Nat)
    (h : Nat.ofDigitChars 10 a start < Nat.ofDigitChars 10 b start) :
    a.map Char.toNat < b.map Char.toNat := by
  induction a generalizing b start with
  | nil =>
      rw [List.length_eq_zero_iff.mp hlength.symm] at h
      exact absurd h (Nat.lt_irrefl _)
  | cons c a ih =>
      cases b with
      | nil => cases hlength
      | cons d b =>
          have hlength := Nat.succ.inj hlength
          have hc := isDigit_toNat (ha c List.mem_cons_self)
          have hd := isDigit_toNat (hb d List.mem_cons_self)
          have ha' : ∀ c ∈ a, c.isDigit = true := fun c hc => ha c (List.mem_cons_of_mem _ hc)
          have hb' : ∀ c ∈ b, c.isDigit = true := fun c hc => hb c (List.mem_cons_of_mem _ hc)
          have hzero : '0'.toNat = 48 := rfl
          rw [Nat.ofDigitChars_cons, Nat.ofDigitChars_cons] at h
          rw [List.map_cons, List.map_cons, List.cons_lt_cons_iff]
          rcases Nat.lt_trichotomy c.toNat d.toNat with hlt | heq | hgt
          · exact .inl hlt
          · rw [heq] at h
            exact .inr ⟨heq, ih ha' hb' hlength _ h⟩
          · -- a greater first digit makes the number greater
            exfalso
            have hupper := ofDigitChars_lt hb' (10 * start + (d.toNat - '0'.toNat))
            have hlower : 10 ^ a.length * (10 * start + (c.toNat - '0'.toNat)) ≤
                Nat.ofDigitChars 10 a (10 * start + (c.toNat - '0'.toNat)) := by
              rw [Nat.ofDigitChars_eq_ofDigitChars_zero]
              exact Nat.le_add_right _ _
            rw [← hlength] at hupper
            have hle : 10 ^ a.length * (10 * start + (d.toNat - '0'.toNat) + 1) ≤
                10 ^ a.length * (10 * start + (c.toNat - '0'.toNat)) := by
              apply Nat.mul_le_mul_left
              omega
            omega

theorem toDigits_lt {m n : Nat} (hlt : m < n)
    (hlength : (Nat.toDigits 10 m).length = (Nat.toDigits 10 n).length) :
    (Nat.toDigits 10 m).map Char.toNat < (Nat.toDigits 10 n).map Char.toNat := by
  have hdigits (n : Nat) : ∀ c ∈ Nat.toDigits 10 n, c.isDigit = true := fun c hc =>
    Nat.isDigit_of_mem_toDigits (by decide) (by decide) hc
  apply map_toNat_lt (hdigits m) (hdigits n) hlength 0
  rwa [Nat.ofDigitChars_ten_toDigits, Nat.ofDigitChars_ten_toDigits]

/-- The time is later, or it is the same and the number is greater, and what is greater has no more
digits than before. -/
structure Stamp.Follows (a b : Stamp) : Prop where
  later : a.now < b.now ∨ a.now = b.now ∧ a.seq < b.seq
  nowDigits : (Nat.toDigits 10 a.now).length = (Nat.toDigits 10 b.now).length
  seqDigits : a.now = b.now →
    (Nat.toDigits 10 a.seq).length = (Nat.toDigits 10 b.seq).length

/-- Texts of one length in order stay in order whatever follows them. -/
theorem append_lt_append {a b : List Nat} (h : a < b) (hlength : a.length = b.length)
    (x y : List Nat) : a ++ x < b ++ y := by
  induction a generalizing b with
  | nil =>
      rw [List.length_eq_zero_iff.mp hlength.symm] at h
      exact absurd h (lt_irrefl _)
  | cons m a ih =>
      cases b with
      | nil => cases hlength
      | cons n b =>
          rw [List.cons_append, List.cons_append]
          rcases List.cons_lt_cons_iff.mp h with hlt | ⟨rfl, hrest⟩
          · exact List.cons_lt_cons_iff.mpr (.inl hlt)
          · exact List.cons_lt_cons_iff.mpr (.inr ⟨rfl, ih hrest (Nat.succ.inj hlength)⟩)

theorem Stamp.Follows.sortKey_lt {a b : Stamp} (h : a.Follows b) : a.sortKey < b.sortKey := by
  have hkey (stamp : Stamp) : stamp.sortKey = (Nat.toDigits 10 stamp.now).map Char.toNat ++
      '-'.toNat :: ((Nat.toDigits 10 stamp.seq).map Char.toNat ++
        (".bak" : Text).map Char.toNat) := by
    rw [sortKey_eq, text, List.map_append, List.map_cons, List.map_append]
  rw [hkey, hkey]
  rcases h.later with hnow | ⟨hsame, hseq⟩
  · apply append_lt_append (toDigits_lt hnow h.nowDigits)
    rw [List.length_map, List.length_map, h.nowDigits]
  · have hdigits := toDigits_lt hseq (h.seqDigits hsame)
    rw [hsame, append_lt_append_iff, List.cons_lt_cons_iff]
    refine .inr ⟨rfl, append_lt_append hdigits ?_ _ _⟩
    rw [List.length_map, List.length_map, h.seqDigits hsame]

/-! ## Rotations -/

universe v
variable {φ : Type u} {base : Text} {nameLe : Text → Text → Prop} {limit : Nat}

/-- The backups that are there, with their contents, and the rotations so far, the oldest first. -/
structure Rotations (φ : Type u) where
  onDisk : List (Text × φ)
  rotateCounter : Nat
  rotated : List (Stamp × φ)

/-- The backup that a rotation makes. -/
def backup (base : Text) (rotation : Stamp × φ) : Text × φ := (name base rotation.1, rotation.2)

/-- The backups are those of the newest rotations, and the newest of all is among them. -/
structure Retained (base : Text) (limit : Nat) (r : Rotations φ) : Prop where
  exact : r.onDisk.Perm ((r.rotated.rtake limit).map (backup base))
  newest : 0 < limit → ∀ rotation, r.rotated.getLast? = some rotation →
    backup base rotation ∈ r.onDisk

/-- The name of the backup that a rotation makes superfluous comes before those that are kept. -/
def Orderly (limit : Nat) (rotated : List (Stamp × φ)) : Option (Stamp × φ) → Prop
  | none => True
  | some rotation =>
      Retention.OldestFirst (fun a b : Stamp => a.sortKey ≤ b.sortKey) limit
        ((rotated.rtake limit ++ [rotation]).map (·.1))

instance decidableOrderly (limit : Nat) (rotated : List (Stamp × φ)) :
    ∀ rotation, Decidable (Orderly limit rotated rotation)
  | none => .isTrue trivial
  | some rotation =>
      inferInstanceAs (Decidable (Retention.OldestFirst (fun a b : Stamp => a.sortKey ≤ b.sortKey)
        limit ((rotated.rtake limit ++ [rotation]).map (·.1))))

/-- What a step of a component does to its backups: nothing, or it adds one under the next number
and keeps as many as the limit, the greatest names. -/
inductive Moves (base : Text) (nameLe : Text → Text → Prop) (limit : Nat) :
    Option (Stamp × φ) → Rotations φ → Rotations φ → Prop
  | stays (r : Rotations φ) {later : Nat} (h : r.rotateCounter ≤ later) :
      Moves base nameLe limit none r { r with rotateCounter := later }
  | rotates (r : Rotations φ) (now : Nat) (content : φ) {kept : List (Text × φ)}
      (h : Retention.KeepsGreatest (fun a b => nameLe a.1 b.1) limit
        (r.onDisk ++ [backup base (⟨now, r.rotateCounter + 1⟩, content)]) kept) :
      Moves base nameLe limit (some (⟨now, r.rotateCounter + 1⟩, content)) r
        { onDisk := kept
          rotateCounter := r.rotateCounter + 1
          rotated := r.rotated ++ [(⟨now, r.rotateCounter + 1⟩, content)] }

/-- Every rotation has a number of its own that was counted. -/
structure Numbered (r : Rotations φ) : Prop where
  counted : ∀ rotation ∈ r.rotated, rotation.1.seq ≤ r.rotateCounter
  distinct : (r.rotated.map (·.1.seq)).Nodup

/-- Besides, the backups are those of the newest rotations. -/
structure Consistent (base : Text) (limit : Nat) (r : Rotations φ) : Prop extends Numbered r where
  exact : r.onDisk.Perm ((r.rotated.rtake limit).map (backup base))

variable {r t : Rotations φ} {rotation : Option (Stamp × φ)}

theorem Numbered.snoc (h : Numbered r) (now : Nat) (content : φ) :
    ((r.rotated ++ [((⟨now, r.rotateCounter + 1⟩ : Stamp), content)]).map (·.1.seq)).Nodup := by
  rw [List.map_append, List.nodup_append]
  refine ⟨h.distinct, List.nodup_singleton _, ?_⟩
  intro a ha b hb
  obtain ⟨rotation, hrotation, rfl⟩ := List.mem_map.mp ha
  obtain rfl := List.mem_singleton.mp hb
  exact Nat.ne_of_lt (Nat.lt_succ_of_le (h.counted rotation hrotation))

theorem Numbered.moves (h : Numbered r) (hmoves : Moves base nameLe limit rotation r t) :
    Numbered t := by
  cases hmoves with
  | stays _ hle =>
      refine ⟨?_, h.distinct⟩
      intro rotation hrotation
      exact Nat.le_trans (h.counted rotation hrotation) hle
  | rotates _ _ _ _ =>
      refine ⟨?_, h.snoc _ _⟩
      intro rotation hrotation
      rcases List.mem_append.mp hrotation with hold | hnew
      · exact Nat.le_succ_of_le (h.counted rotation hold)
      · rw [List.mem_singleton.mp hnew]

/-- Backups of rotations with different numbers are different, and so are their names. -/
theorem backup_inj {items : List (Stamp × φ)} (h : (items.map (·.1.seq)).Nodup)
    {a b : Stamp × φ} (ha : a ∈ items) (hb : b ∈ items) (hname : a.1 = b.1) : a = b :=
  List.inj_on_of_nodup_map h ha hb (congrArg Stamp.seq hname)

/-- What `perm_rtake_iff` says of backups. -/
theorem perm_rtake_backups_iff {items : List (Stamp × φ)} {kept : List (Text × φ)}
    (hnames : ∀ a b : Stamp, nameLe (name base a) (name base b) ↔ a.sortKey ≤ b.sortKey)
    (hseqs : (items.map (·.1.seq)).Nodup) (hlength : items.length ≤ limit + 1)
    (hkept : Retention.KeepsGreatest (fun a b => nameLe a.1 b.1) limit (items.map (backup base))
      kept) :
    kept.Perm ((items.rtake limit).map (backup base)) ↔
      Retention.OldestFirst (fun a b : Stamp => a.sortKey ≤ b.sortKey) limit
        (items.map (·.1)) := by
  have hnodup : (items.map (backup base)).Nodup := by
    apply List.Nodup.map_on _ (List.Nodup.of_map _ hseqs)
    intro a ha b hb hab
    exact backup_inj hseqs ha hb (name_injective (Prod.mk.inj hab).1)
  have hanti : ∀ a ∈ items.map (backup base), ∀ b ∈ items.map (backup base),
      nameLe a.1 b.1 → nameLe b.1 a.1 → a = b := by
    rintro _ ha _ hb hab hba
    obtain ⟨first, hfirst, rfl⟩ := List.mem_map.mp ha
    obtain ⟨second, hsecond, rfl⟩ := List.mem_map.mp hb
    have hsame : first.1 = second.1 := Stamp.sortKey_injective
      (le_antisymm ((hnames _ _).mp hab) ((hnames _ _).mp hba))
    rw [backup_inj hseqs hfirst hsecond hsame]
  have hiff := hkept.perm_rtake_iff (by rwa [List.length_map]) hnodup hanti
  have hmap : (items.map (backup base)).rtake limit = (items.rtake limit).map (backup base) := by
    rw [List.rtake, List.rtake, List.length_map, List.map_drop]
  rw [hmap] at hiff
  refine hiff.trans ?_
  cases items with
  | nil => exact Iff.rfl
  | cons oldest rest =>
      simp only [List.map_cons, Retention.OldestFirst, List.length_map, List.forall_mem_map,
        backup, hnames]

namespace Consistent

theorem retained (h : Consistent base limit r) : Retained base limit r where
  exact := h.exact
  newest hlimit rotation hlast := by
    obtain ⟨limit, rfl⟩ := Nat.exists_eq_add_of_lt hlimit
    obtain ⟨earlier, hrotated⟩ := List.getLast?_eq_some_iff.mp hlast
    apply h.exact.symm.subset
    rw [hrotated, Nat.zero_add, List.rtake_concat_succ, List.map_append]
    exact List.mem_append_right _ List.mem_cons_self

theorem names_nodup (h : Consistent base limit r) : (r.onDisk.map (·.1)).Nodup := by
  have hnodup : ((r.rotated.rtake limit).map (·.1.seq)).Nodup :=
    List.Pairwise.sublist ((List.drop_sublist _ _).map _) h.distinct
  rw [(h.exact.map _).nodup_iff, List.map_map]
  apply List.Nodup.map_on _ (List.Nodup.of_map _ hnodup)
  intro a ha b hb hab
  exact backup_inj hnodup ha hb (name_injective hab)

/-- The name of the next backup is new. -/
theorem name_notMem (h : Consistent base limit r) (stamp : Stamp)
    (hseq : r.rotateCounter < stamp.seq) : name base stamp ∉ r.onDisk.map (·.1) := by
  intro hmem
  obtain ⟨pair, hpair, hname⟩ := List.mem_map.mp hmem
  obtain ⟨rotation, hrotation, rfl⟩ := List.mem_map.mp (h.exact.subset hpair)
  have hle := h.counted rotation ((List.drop_sublist _ _).subset hrotation)
  rw [name_injective hname] at hle
  omega

/-- A step keeps the newest backups if and only if its rotation is orderly. -/
theorem exact_iff (h : Consistent base limit r)
    (hnames : ∀ a b : Stamp, nameLe (name base a) (name base b) ↔ a.sortKey ≤ b.sortKey)
    (hmoves : Moves base nameLe limit rotation r t) :
    t.onDisk.Perm ((t.rotated.rtake limit).map (backup base)) ↔
      Orderly limit r.rotated rotation := by
  cases hmoves with
  | stays _ _ => exact ⟨fun _ => trivial, fun _ => h.exact⟩
  | @rotates _ now content kept hkept =>
      -- the cleanup sorts the backups of the last rotations
      have hitems : Retention.KeepsGreatest (fun a b => nameLe a.1 b.1) limit
          ((r.rotated.rtake limit ++ [((⟨now, r.rotateCounter + 1⟩ : Stamp), content)]).map
            (backup base)) kept := by
        obtain ⟨sorted, hperm, hsorted, htake⟩ := hkept
        refine ⟨sorted, hperm.trans ?_, hsorted, htake⟩
        rw [List.map_append]
        exact h.exact.append_right _
      rw [Retention.rtake_concat]
      apply perm_rtake_backups_iff hnames _ _ hitems
      · apply List.Pairwise.sublist _ (h.snoc now content)
        exact ((List.drop_sublist _ _).append_right _).map _
      · rw [List.length_append, List.length_singleton]
        exact Nat.succ_le_succ (Retention.length_rtake_le _ _)

end Consistent

/-- Rotations that follow each other without a new digit are orderly. -/
theorem orderly_of_follows {rotated : List (Stamp × φ)} {new : Stamp × φ}
    (h : (rotated ++ [new]).Pairwise fun a b => a.1.Follows b.1) :
    Orderly limit rotated (some new) := by
  have hsub : (rotated.rtake limit ++ [new]).Sublist (rotated ++ [new]) :=
    (List.drop_sublist _ _).append_right _
  have hkept := List.Pairwise.sublist hsub h
  change Retention.OldestFirst _ limit ((rotated.rtake limit ++ [new]).map (·.1))
  cases hitems : rotated.rtake limit ++ [new] with
  | nil => trivial
  | cons oldest rest =>
      rw [hitems] at hkept
      intro _ later hlater
      obtain ⟨rotation, hrotation, rfl⟩ := List.mem_map.mp hlater
      exact not_le.mpr ((List.pairwise_cons.mp hkept).1 rotation hrotation).sortKey_lt

/-- No rotations yet. -/
theorem consistent_nil {rotateCounter : Nat} :
    Consistent base limit ({ onDisk := [], rotateCounter, rotated := [] } : Rotations φ) where
  exact := by simp
  counted _ hmem := by cases hmem
  distinct := List.nodup_nil

section Runs

universe w
variable {σ : Type v} {α : Type w} {S : Transition.System σ α} {view : σ → Rotations φ}
  {rotation? : σ → α → Option (Stamp × φ)} {s : σ}

/-- A component that moves this way keeps the newest backups in exactly the runs whose rotations
are orderly. -/
theorem always_retained_iff (nameLe : Text → Text → Prop)
    (hnames : ∀ a b : Stamp, nameLe (name base a) (name base b) ↔ a.sortKey ≤ b.sortKey)
    (hinit : ∀ s, S.init s → (view s).onDisk = [] ∧ (view s).rotated = [])
    (hmoves : ∀ s a t, Consistent base limit (view s) → S.step s a = some t →
      Moves base nameLe limit (rotation? s a) (view s) (view t))
    (hs : S.init s) (as : List α) :
    S.Always (fun s => Retained base limit (view s)) s as ↔
      S.Guarded (fun s a => Orderly limit (view s).rotated (rotation? s a)) s as := by
  have hstart (s : σ) (hs : S.init s) : Consistent base limit (view s) := by
    obtain ⟨hdisk, hrotated⟩ := hinit s hs
    have hview : view s =
        { onDisk := [], rotateCounter := (view s).rotateCounter, rotated := [] } := by
      rw [← hdisk, ← hrotated]
    rw [hview]
    exact consistent_nil
  have hpreserved : S.Preserved
      (fun s a => Orderly limit (view s).rotated (rotation? s a))
      (fun s => Consistent base limit (view s)) := by
    refine ⟨hstart, ?_⟩
    intro s a t hI horderly hstep
    have hmove := hmoves s a t hI hstep
    exact ⟨hI.toNumbered.moves hmove, (hI.exact_iff hnames hmove).mpr horderly⟩
  apply Transition.System.always_iff_guarded hpreserved
  · exact fun s hI => hI.retained
  · intro s a t hI hstep hretained
    exact (hI.exact_iff hnames (hmoves s a t hI hstep)).mp hretained.exact
  · exact hstart s hs

end Runs

end ErrorCore.Backups
