import ErrorCore.Transport.Backups
import ErrorCore.Transport.FileTransport

/-!
# Rotations one at a time

While a rotation is awaited by one other call at most, the next one starts when
it has settled: its file is there until it is renamed, and the name it gets is
new. A line that was written stays in its file, and the file stays.
-/

namespace ErrorCore.FileTransport

variable {cfg : Config}

/-! ## Names -/

/-- Backups with different numbers have different names. -/
theorem seq_eq_of_backupName {stamp stamp' seq seq' : Nat}
    (h : cfg.backupName stamp seq = cfg.backupName stamp' seq') : seq = seq' :=
  (Backups.Stamp.mk.inj (Backups.name_injective h)).2

theorem isBackup_backupName (stamp seq : Nat) : cfg.isBackup (cfg.backupName stamp seq) = true := by
  have hstart : cfg.base ++ ['.'] <+: cfg.backupName stamp seq := by
    refine ⟨Nat.toDigits 10 stamp ++ '-' :: (Nat.toDigits 10 seq ++ (".bak" : Text)), ?_⟩
    rw [List.append_assoc]
    rfl
  have hend : (".bak" : Text) <:+ cfg.backupName stamp seq := by
    refine ⟨cfg.base ++ '.' :: (Nat.toDigits 10 stamp ++ '-' :: Nat.toDigits 10 seq), ?_⟩
    simp [Config.backupName]
  rw [Config.isBackup, Bool.and_eq_true]
  exact ⟨List.isPrefixOf_iff_prefix.mpr hstart, List.isSuffixOf_iff_suffix.mpr hend⟩

theorem ne_base_of_isBackup {name : Text} (h : cfg.isBackup name = true) : name ≠ cfg.base := by
  rintro rfl
  have hstart : (cfg.base ++ ['.']).isPrefixOf cfg.base = true := (Bool.and_eq_true_iff.mp h).1
  have hlength := (List.isPrefixOf_iff_prefix.mp hstart).length_le
  rw [List.length_append, List.length_singleton] at hlength
  omega

theorem isBackup_of_mem_expiredBackups {names : List Text} {name : Text}
    (h : name ∈ cfg.expiredBackups names) : cfg.isBackup name = true := by
  have hsorted : ∀ r : Text → Text → Prop, [DecidableRel r] →
      name ∈ ((names.filter cfg.isBackup).insertionSort r).reverse → cfg.isBackup name = true := by
    intro r _ hmem
    rw [List.mem_reverse, List.mem_insertionSort] at hmem
    exact (List.mem_filter.mp hmem).2
  rw [Config.expiredBackups] at h
  split at h
  · exact hsorted _ (List.mem_of_mem_drop h)
  · exact hsorted _ (List.mem_of_mem_drop h)

/-! ## The disk -/

/-- Files that were backups before, `foreign`, may be replaced. Every other file is the current one
or a backup of the rotations so far, or was deleted by a cleanup. -/
structure Disk.Holds (cfg : Config) (foreign : List Nat) (rotateCounter : Nat) (disk : Disk) :
    Prop where
  wellFormed : disk.directory.WellFormed
  foreign_lt : ∀ f ∈ foreign, f < disk.directory.files.length
  current : ∀ f, (cfg.base, f) ∈ disk.directory.names → f ∉ foreign
  placed : ∀ f, f < disk.directory.files.length → f ∉ foreign → f ∈ disk.cleaned ∨
    (cfg.base, f) ∈ disk.directory.names ∨
      ∃ stamp seq, seq ≤ rotateCounter ∧ (cfg.backupName stamp seq, f) ∈ disk.directory.names
  numbered : ∀ stamp seq f, (cfg.backupName stamp seq, f) ∈ disk.directory.names →
    f ∉ foreign → seq ≤ rotateCounter
  lines : ∀ f file, disk.directory.files[f]? = some file → file.lines ≠ [] → f ∉ foreign

namespace Disk

variable {foreign : List Nat} {rotateCounter : Nat} {disk : Disk}

theorem Holds.mono {later : Nat} (h : disk.Holds cfg foreign rotateCounter)
    (hle : rotateCounter ≤ later) : disk.Holds cfg foreign later where
  wellFormed := h.wellFormed
  foreign_lt := h.foreign_lt
  current := h.current
  placed f hf hforeign := by
    rcases h.placed f hf hforeign with hcleaned | hcurrent | ⟨stamp, seq, hseq, hname⟩
    · exact .inl hcleaned
    · exact .inr (.inl hcurrent)
    · exact .inr (.inr ⟨stamp, seq, Nat.le_trans hseq hle, hname⟩)
  numbered stamp seq f hname hforeign := Nat.le_trans (h.numbered stamp seq f hname hforeign) hle
  lines := h.lines

theorem Holds.unlink (h : disk.Holds cfg foreign rotateCounter) {name : Text}
    (hbackup : cfg.isBackup name = true) : (disk.unlink name).Holds cfg foreign rotateCounter where
  wellFormed := h.wellFormed.unlink name
  foreign_lt := h.foreign_lt
  current f hname := h.current f (Directory.mem_unlink.mp hname).1
  placed f hf hforeign := by
    rcases h.placed f hf hforeign with hcleaned | hcurrent | ⟨stamp, seq, hseq, hname⟩
    · exact .inl (List.mem_append_right _ hcleaned)
    · exact .inr (.inl (Directory.mem_unlink.mpr ⟨hcurrent, (ne_base_of_isBackup hbackup).symm⟩))
    · by_cases heq : cfg.backupName stamp seq = name
      · subst heq
        refine .inl (List.mem_append_left _ ?_)
        rw [h.wellFormed.find?_eq hname]
        exact List.mem_singleton_self f
      · exact .inr (.inr ⟨stamp, seq, hseq, Directory.mem_unlink.mpr ⟨hname, heq⟩⟩)
  numbered stamp seq f hname := h.numbered stamp seq f (Directory.mem_unlink.mp hname).1
  lines := h.lines

theorem Holds.unlinkAll {names : List Text} (h : disk.Holds cfg foreign rotateCounter)
    (hbackups : ∀ name ∈ names, cfg.isBackup name = true) :
    (names.foldl Disk.unlink disk).Holds cfg foreign rotateCounter := by
  induction names generalizing disk with
  | nil => exact h
  | cons name names ih =>
      obtain ⟨hfirst, hrest⟩ := List.forall_mem_cons.mp hbackups
      exact ih (h.unlink hfirst) hrest

theorem Holds.cleanupOldBackups (h : disk.Holds cfg foreign rotateCounter) (kept : List Text) :
    (disk.cleanupOldBackups cfg kept).Holds cfg foreign rotateCounter :=
  h.unlinkAll fun _ hname => isBackup_of_mem_expiredBackups (List.mem_filter.mp hname).1

theorem unlinkAll_files (names : List Text) (disk : Disk) :
    (names.foldl Disk.unlink disk).directory.files = disk.directory.files := by
  induction names generalizing disk with
  | nil => rfl
  | cons name names ih => exact ih (disk.unlink name)

/-- The current file becomes a backup under a number that no other file has. -/
theorem Holds.rename (h : disk.Holds cfg foreign rotateCounter) {stamp : Nat}
    {directory : Directory Text File}
    (hnew : ∀ stamp f, (cfg.backupName stamp rotateCounter, f) ∈ disk.directory.names →
      f ∈ foreign)
    (hrename : disk.directory.rename cfg.base (cfg.backupName stamp rotateCounter) =
      some directory) :
    Disk.Holds cfg foreign rotateCounter { disk with directory } := by
  obtain ⟨f, hfind, -⟩ := Directory.rename_eq_some_iff.mp hrename
  have hfiles : directory.files = disk.directory.files := Directory.rename_files hrename
  have hbase : (cfg.base, f) ∈ disk.directory.names := Directory.mem_of_find? hfind
  refine ⟨h.wellFormed.rename hrename, ?_, ?_, ?_, ?_, ?_⟩
  · rw [hfiles]
    exact h.foreign_lt
  · intro g hname
    rcases (Directory.mem_rename hfind hrename).mp hname with ⟨-, hne, -⟩ | hmoved
    · exact absurd rfl hne
    · exact absurd (Prod.mk.inj hmoved).1.symm
        (ne_base_of_isBackup (isBackup_backupName stamp rotateCounter))
  · intro g hg hforeign
    rw [hfiles] at hg
    rcases h.placed g hg hforeign with hcleaned | hcurrent | ⟨stamp', seq, hseq, hname⟩
    · exact .inl hcleaned
    · obtain rfl : f = g :=
        Option.some.inj (hfind.symm.trans (h.wellFormed.find?_eq hcurrent))
      refine .inr (.inr ⟨stamp, rotateCounter, Nat.le_refl _, ?_⟩)
      exact (Directory.mem_rename hfind hrename).mpr (.inr rfl)
    · refine .inr (.inr ⟨stamp', seq, hseq, ?_⟩)
      refine (Directory.mem_rename hfind hrename).mpr (.inl ⟨hname, ?_, ?_⟩)
      · exact ne_base_of_isBackup (isBackup_backupName stamp' seq)
      · intro heq
        obtain rfl := seq_eq_of_backupName heq
        exact hforeign (hnew stamp' g hname)
  · intro stamp' seq g hname hforeign
    rcases (Directory.mem_rename hfind hrename).mp hname with ⟨hold, -, -⟩ | hmoved
    · exact h.numbered stamp' seq g hold hforeign
    · exact Nat.le_of_eq (seq_eq_of_backupName (Prod.mk.inj hmoved).1)
  · rw [hfiles]
    exact h.lines

theorem Holds.openFile (h : disk.Holds cfg foreign rotateCounter) :
    Disk.Holds cfg foreign rotateCounter
      { disk with directory := (disk.directory.openFile cfg.base File.empty).2 } := by
  have hwf := h.wellFormed.openFile cfg.base File.empty
  rcases Directory.openFile_cases disk.directory cfg.base File.empty with
    ⟨-, heq⟩ | ⟨hfind, -, heq⟩
  · rw [heq]
    exact h
  · rw [heq] at hwf ⊢
    have hlt : ∀ f ∈ foreign, f < disk.directory.files.length := h.foreign_lt
    refine ⟨hwf, ?_, ?_, ?_, ?_, ?_⟩
    · intro f hf
      rw [List.length_append]
      exact Nat.lt_add_right _ (hlt f hf)
    · intro f hname
      rcases List.mem_append.mp hname with hold | hnew
      · exact h.current f hold
      · obtain ⟨-, rfl⟩ := Prod.mk.inj (List.mem_singleton.mp hnew)
        exact fun hforeign => Nat.lt_irrefl _ (hlt _ hforeign)
    · intro f hf hforeign
      rw [List.length_append, List.length_singleton] at hf
      rcases Nat.lt_succ_iff_lt_or_eq.mp hf with hold | rfl
      · rcases h.placed f hold hforeign with hcleaned | hcurrent | ⟨stamp, seq, hseq, hname⟩
        · exact .inl hcleaned
        · exact .inr (.inl (List.mem_append_left _ hcurrent))
        · exact .inr (.inr ⟨stamp, seq, hseq, List.mem_append_left _ hname⟩)
      · exact .inr (.inl (List.mem_append_right _ List.mem_cons_self))
    · intro stamp seq f hname
      rcases List.mem_append.mp hname with hold | hnew
      · exact h.numbered stamp seq f hold
      · exact absurd (Prod.mk.inj (List.mem_singleton.mp hnew)).1
          (ne_base_of_isBackup (isBackup_backupName stamp seq))
    · intro f file hfile hlines
      rw [List.getElem?_append] at hfile
      split at hfile
      · exact h.lines f file hfile hlines
      · next hge =>
        intro hforeign
        exact hge (hlt f hforeign)

theorem Holds.modify (h : disk.Holds cfg foreign rotateCounter) {f : Nat} {write : File → File}
    (hforeign : f ∉ foreign) :
    Disk.Holds cfg foreign rotateCounter
      { disk with directory := disk.directory.modify f write } where
  wellFormed := h.wellFormed.modify f write
  foreign_lt g hg := by
    rw [Directory.modify, List.length_modify]
    exact h.foreign_lt g hg
  current := h.current
  placed g hg := by
    rw [Directory.modify, List.length_modify] at hg
    exact h.placed g hg
  numbered := h.numbered
  lines g file hfile hlines := by
    by_cases heq : g = f
    · rw [heq]
      exact hforeign
    · rw [Directory.modify_getElem?_of_ne heq] at hfile
      exact h.lines g file hfile hlines

end Disk

/-! ## Lines in files -/

section Lines

variable {p : Nat × Bytes → Bool} {files : List File} {f : Nat}

theorem countP_modify {line : Nat × Bytes} {write : File → File}
    (hwrite : ∀ file, (write file).lines = file.lines ++ [line]) (hf : f < files.length) :
    ((files.modify f write).flatMap (·.lines)).countP p =
      (files.flatMap (·.lines)).countP p + (p line).toNat := by
  induction files generalizing f with
  | nil => exact absurd hf (Nat.not_lt_zero f)
  | cons file files ih =>
      cases f with
      | zero =>
          rw [List.modify_zero_cons, List.flatMap_cons, List.flatMap_cons, hwrite,
            List.countP_append, List.countP_append, List.countP_append]
          cases hp : p line with
          | true => simp [hp]; omega
          | false => simp [hp]
      | succ f =>
          have hrest := ih (Nat.lt_of_succ_lt_succ hf)
          rw [List.modify_succ_cons, List.flatMap_cons, List.flatMap_cons, List.countP_append,
            List.countP_append, hrest, Nat.add_assoc]

theorem flatMap_modify {write : File → File} (hwrite : ∀ file, (write file).lines = file.lines) :
    (files.modify f write).flatMap (·.lines) = files.flatMap (·.lines) := by
  induction files generalizing f with
  | nil => simp
  | cons file files ih =>
      cases f with
      | zero => rw [List.modify_zero_cons, List.flatMap_cons, List.flatMap_cons, hwrite]
      | succ f => rw [List.modify_succ_cons, List.flatMap_cons, List.flatMap_cons, ih]

end Lines

/-! ## The invariant -/

/-- The line of the call is in a file. -/
def Phase.hasWritten : Phase → Bool
  | .appended true | .resolved => true
  | _ => false

/-- What a rotation can rely on: its file stays, and its name is new. -/
def Rotation.Holds (cfg : Config) (foreign : List Nat) (s : State) : Rotation → Prop
  | .statted (some _) => ∃ f, (cfg.base, f) ∈ s.disk.directory.names
  | .rename _ seq =>
      (∃ f, (cfg.base, f) ∈ s.disk.directory.names) ∧ seq = s.rotateCounter ∧
        ∀ stamp f, (cfg.backupName stamp seq, f) ∈ s.disk.directory.names → f ∈ foreign
  | .renamed ok => ok = false → s.faulted = true
  | .unlink name rest => ∀ backup ∈ name :: rest, cfg.isBackup backup = true
  | .unlinked rest => ∀ backup ∈ rest, cfg.isBackup backup = true
  | .stat | .statted none | .readdir | .listed _ => True

/-- What holds of a call: the rotation it waits for, or has started, is the one that
`rotatePromise` belongs to. -/
def Phase.Holds (cfg : Config) (foreign : List Nat) (s : State) (i : Nat) : Phase → Prop
  | .waiting other => s.rotatePromise = some other
  | .rotating rotation => s.rotatePromise = some i ∧ rotation.Holds cfg foreign s
  | .madeDirectory ok | .appended ok => ok = false → s.faulted = true
  | .opened f => f < s.disk.directory.files.length ∧ f ∉ foreign
  | .rejected => s.faulted = true
  | .mkdir | .append | .resolved => True

structure State.Serial (cfg : Config) (foreign : List Nat) (s : State) : Prop where
  disk : s.disk.Holds cfg foreign s.rotateCounter
  phases : ∀ i phase, s.phase? i = some phase → phase.Holds cfg foreign s i
  live : ∀ i, s.rotatePromise = some i → ∃ rotation, s.phase? i = some (.rotating rotation)
  written : ∀ i, s.written i = ((s.phase? i).any Phase.hasWritten).toNat
  kept : ∀ i (call : Call), s.calls[i]? = some call → call.phase.hasWritten = true →
    ∃ (f : Nat) (file : File), s.disk.directory.files[f]? = some file ∧
      (i, call.line) ∈ file.lines

namespace State

variable {foreign : List Nat} {s t : State} {i j : Nat} {phase : Phase} {call : Call}

theorem phase?_eq (h : s.calls[i]? = some call) : s.phase? i = some call.phase := by
  rw [phase?, h]
  rfl

theorem phase?_put (hcall : s.calls[i]? = some call) (phase : Phase) (j : Nat) :
    (s.put i phase).phase? j = if j = i then some phase else s.phase? j := by
  rw [phase?, put, List.getElem?_modify]
  by_cases hj : j = i
  · subst hj
    simp [hcall]
  · simp [hj, Ne.symm hj, phase?]

theorem mem_waiters_iff : j ∈ s.waiters i ↔ s.phase? j = some (.waiting i) := by
  rw [waiters, List.mem_filter, List.mem_range, decide_eq_true_iff, and_iff_right_iff_imp]
  intro hphase
  rw [phase?, Option.map_eq_some_iff] at hphase
  obtain ⟨call, hcall, -⟩ := hphase
  exact (List.getElem?_eq_some_iff.mp hcall).1

theorem mem_inFlight_iff :
    j ∈ s.inFlight ↔ ∃ rotation, s.phase? j = some (.rotating rotation) := by
  rw [inFlight, List.mem_filter, List.mem_range]
  constructor
  · rintro ⟨-, hphase⟩
    split at hphase
    · next rotation heq => exact ⟨rotation, heq⟩
    · contradiction
  · rintro ⟨rotation, hphase⟩
    rw [hphase]
    refine ⟨?_, rfl⟩
    rw [phase?, Option.map_eq_some_iff] at hphase
    obtain ⟨call, hcall, -⟩ := hphase
    exact (List.getElem?_eq_some_iff.mp hcall).1

/-- Lists of calls have no duplicates, so that a short one has one element. -/
theorem length_le_one_iff {l : List Nat} (hnodup : l.Nodup) :
    l.length ≤ 1 ↔ ∀ a ∈ l, ∀ b ∈ l, a = b := by
  match l with
  | [] => simp
  | [a] => simp
  | a :: b :: rest =>
      rw [List.nodup_cons] at hnodup
      refine iff_of_false (by simp) fun h => ?_
      have heq : a = b := h a List.mem_cons_self b (List.mem_cons_of_mem _ List.mem_cons_self)
      rw [heq] at hnodup
      exact hnodup.1 List.mem_cons_self

theorem waiters_nodup (s : State) (i : Nat) : (s.waiters i).Nodup :=
  List.nodup_range.filter _

theorem inFlight_nodup (s : State) : s.inFlight.Nodup :=
  List.nodup_range.filter _

/-- The rotations in flight are those of the call that `rotatePromise` belongs to. -/
theorem Serial.single (h : Serial cfg foreign s) : s.inFlight.length ≤ 1 := by
  rw [length_le_one_iff s.inFlight_nodup]
  intro a ha b hb
  obtain ⟨_, ha⟩ := mem_inFlight_iff.mp ha
  obtain ⟨_, hb⟩ := mem_inFlight_iff.mp hb
  exact Option.some.inj ((h.phases a _ ha).1.symm.trans (h.phases b _ hb).1)

theorem Serial.rotates (h : Serial cfg foreign s) : s.Rotates cfg where
  single := h.single
  accepted i hphase := h.phases i _ hphase
  once i := by
    rw [h.written i]
    exact Bool.toNat_le _
  kept i call hcall hresolved := by
    have hphase : s.phase? i = some .resolved := by rw [phase?_eq hcall, hresolved]
    refine ⟨?_, ?_⟩
    · rw [h.written i, hphase]
      rfl
    · have hwritten : call.phase.hasWritten = true := by
        rw [hresolved]
        rfl
      obtain ⟨f, file, hfile, hline⟩ := h.kept i call hcall hwritten
      refine ⟨f, file, hfile, hline, ?_⟩
      have hforeign : f ∉ foreign := h.disk.lines f file hfile (List.ne_nil_of_mem hline)
      have hlt : f < s.disk.directory.files.length := (List.getElem?_eq_some_iff.mp hfile).1
      rcases h.disk.placed f hlt hforeign with hcleaned | hcurrent | ⟨stamp, seq, -, hname⟩
      · exact .inl hcleaned
      · exact .inr ⟨_, hcurrent, .inl rfl⟩
      · exact .inr ⟨_, hname, .inr (isBackup_backupName stamp seq)⟩

/-! ### Steps of one call -/

/-- Calls that neither wait for a rotation nor have one rely on little. -/
theorem Phase_Holds_frame (h : phase.Holds cfg foreign s j)
    (hwaiting : ∀ other, phase ≠ .waiting other)
    (hrotating : ∀ rotation, phase ≠ .rotating rotation)
    (hfaulted : s.faulted = true → t.faulted = true)
    (hfiles : s.disk.directory.files.length ≤ t.disk.directory.files.length) :
    phase.Holds cfg foreign t j := by
  cases phase with
  | waiting other => exact absurd rfl (hwaiting other)
  | rotating rotation => exact absurd rfl (hrotating rotation)
  | mkdir => trivial
  | madeDirectory ok => exact fun hok => hfaulted (h hok)
  | append => trivial
  | opened f => exact ⟨Nat.lt_of_lt_of_le h.1 hfiles, h.2⟩
  | appended ok => exact fun hok => hfaulted (h hok)
  | resolved => trivial
  | rejected => exact hfaulted h

theorem Phase_Holds_mono (h : phase.Holds cfg foreign s j)
    (hpromise : t.rotatePromise = s.rotatePromise) (hfaulted : s.faulted = true → t.faulted = true)
    (hfiles : s.disk.directory.files.length ≤ t.disk.directory.files.length)
    (hrotation : ∀ rotation, phase = .rotating rotation → rotation.Holds cfg foreign s →
      rotation.Holds cfg foreign t) : phase.Holds cfg foreign t j := by
  cases phase with
  | waiting other => exact hpromise.trans h
  | rotating rotation => exact ⟨hpromise.trans h.1, hrotation rotation rfl h.2⟩
  | _ => exact Phase_Holds_frame h nofun nofun hfaulted hfiles

theorem Serial.eq_of_rotating (h : Serial cfg foreign s) {rotation rotation' : Rotation}
    (hi : s.phase? i = some (.rotating rotation)) (hj : s.phase? j = some (.rotating rotation')) :
    j = i :=
  Option.some.inj ((h.phases j _ hj).1.symm.trans (h.phases i _ hi).1)

/-- A step of one call, with what it does to the disk. -/
structure Advances (cfg : Config) (foreign : List Nat) (s : State) (i : Nat) (call : Call)
    (phase : Phase) (t : State) : Prop where
  calls : t.calls = (s.put i phase).calls
  promise : t.rotatePromise = s.rotatePromise
  faulted : s.faulted = true → t.faulted = true
  disk : t.disk.Holds cfg foreign t.rotateCounter
  files : s.disk.directory.files.length ≤ t.disk.directory.files.length
  holds : phase.Holds cfg foreign t i
  others : ∀ j rotation, j ≠ i → s.phase? j = some (.rotating rotation) →
    rotation.Holds cfg foreign s → rotation.Holds cfg foreign t
  rotates : ∀ rotation, call.phase = .rotating rotation → ∃ next, phase = .rotating next
  written : ∀ j, t.written j = if j = i then phase.hasWritten.toNat else s.written j
  stays : ∀ (f : Nat) (file : File) (line : Nat × Bytes), s.disk.directory.files[f]? = some file →
    line ∈ file.lines → ∃ file', t.disk.directory.files[f]? = some file' ∧ line ∈ file'.lines
  wrote : phase.hasWritten = true → call.phase.hasWritten = false →
    ∃ (f : Nat) (file : File), t.disk.directory.files[f]? = some file ∧ (i, call.line) ∈ file.lines

theorem Serial.advance (h : Serial cfg foreign s) (phase : Phase) (hcall : s.calls[i]? = some call)
    (hstep : Advances cfg foreign s i call phase t) : Serial cfg foreign t := by
  have hphases (j : Nat) : t.phase? j = if j = i then some phase else s.phase? j := by
    rw [← phase?_put hcall phase j, State.phase?, hstep.calls]
    rfl
  refine ⟨hstep.disk, ?_, ?_, ?_, ?_⟩
  · intro j other hother
    rw [hphases] at hother
    split at hother
    · next hj =>
      subst hj
      obtain rfl := Option.some.inj hother
      exact hstep.holds
    · next hj =>
      refine Phase_Holds_mono (h.phases j other hother) hstep.promise hstep.faulted hstep.files ?_
      rintro rotation rfl
      exact hstep.others j rotation hj hother
  · intro j hj
    rw [hstep.promise] at hj
    obtain ⟨rotation, hrotation⟩ := h.live j hj
    rw [hphases]
    split
    · next heq =>
      subst heq
      rw [phase?_eq hcall] at hrotation
      obtain ⟨next, rfl⟩ := hstep.rotates rotation (Option.some.inj hrotation)
      exact ⟨next, rfl⟩
    · exact ⟨rotation, hrotation⟩
  · intro j
    rw [hstep.written, hphases]
    split
    · rfl
    · exact h.written j
  · intro j other hother hwritten
    have hold : ∃ first, s.calls[j]? = some first ∧ first.payload = other.payload ∧
        (j = i → other.phase = phase ∧ first = call) ∧ (j ≠ i → first = other) := by
      rw [hstep.calls, put, List.getElem?_modify] at hother
      cases hfirst : s.calls[j]? with
      | none =>
          rw [hfirst] at hother
          contradiction
      | some first =>
          rw [hfirst] at hother
          by_cases hj : i = j
          · subst hj
            obtain rfl := Option.some.inj (hfirst.symm.trans hcall)
            obtain rfl : { first with phase } = other := by simpa using hother
            exact ⟨first, rfl, rfl, fun _ => ⟨rfl, rfl⟩, fun hne => absurd rfl hne⟩
          · obtain rfl : first = other := by simpa [hj] using hother
            exact ⟨first, rfl, rfl, fun heq => absurd heq.symm hj, fun _ => rfl⟩
    obtain ⟨first, hfirst, hpayload, hself, hother⟩ := hold
    have hline : first.line = other.line := by rw [Call.line, Call.line, hpayload]
    rw [← hline]
    have hcase : first.phase.hasWritten = true ∨
        (j = i ∧ first = call ∧ call.phase.hasWritten = false ∧ phase.hasWritten = true) := by
      by_cases hj : j = i
      · obtain ⟨hphase, rfl⟩ := hself hj
        rw [hphase] at hwritten
        cases hbefore : first.phase.hasWritten with
        | true => exact .inl rfl
        | false => exact .inr ⟨hj, rfl, rfl, hwritten⟩
      · rw [hother hj]
        exact .inl hwritten
    rcases hcase with hbefore | ⟨rfl, rfl, hbefore, hafter⟩
    · obtain ⟨f, file, hfile, hmem⟩ := h.kept j first hfirst hbefore
      obtain ⟨file', hfile', hmem'⟩ := hstep.stays f file _ hfile hmem
      exact ⟨f, file', hfile', hmem'⟩
    · exact hstep.wrote hafter hbefore

theorem written_eq_of_files (h : t.disk.directory.files = s.disk.directory.files) (j : Nat) :
    t.written j = s.written j := by
  rw [written, written, h]

/-- A call that does not write now has written as much as before. -/
theorem Serial.written_eq (h : Serial cfg foreign s) (hcall : s.calls[i]? = some call)
    (hsame : phase.hasWritten = call.phase.hasWritten) (j : Nat) :
    s.written j = if j = i then phase.hasWritten.toNat else s.written j := by
  split
  · next hj =>
    subst hj
    rw [h.written, phase?_eq hcall, hsame]
    rfl
  · rfl

/-- A step of a rotation, which no other rotation sees. -/
theorem Serial.advance_rotation (h : Serial cfg foreign s) (hcall : s.calls[i]? = some call)
    {rotation next : Rotation} (hphase : call.phase = .rotating rotation)
    (hcalls : t.calls = (s.put i (.rotating next)).calls)
    (hpromise : t.rotatePromise = s.rotatePromise)
    (hfaulted : s.faulted = true → t.faulted = true)
    (hdisk : t.disk.Holds cfg foreign t.rotateCounter)
    (hfiles : t.disk.directory.files = s.disk.directory.files)
    (hnext : next.Holds cfg foreign t) : Serial cfg foreign t := by
  have hrotating : s.phase? i = some (.rotating rotation) := by rw [phase?_eq hcall, hphase]
  refine h.advance (.rotating next) hcall ?_
  refine ⟨hcalls, hpromise, hfaulted, hdisk, Nat.le_of_eq (by rw [hfiles]), ?_, ?_, ?_, ?_, ?_, ?_⟩
  · exact ⟨hpromise.trans (h.phases i _ hrotating).1, hnext⟩
  · intro j other hj hother
    exact absurd (h.eq_of_rotating hrotating hother) hj
  · exact fun _ _ => ⟨next, rfl⟩
  · intro j
    rw [written_eq_of_files hfiles]
    refine h.written_eq hcall ?_ j
    rw [hphase]
    rfl
  · intro f file line hfile hline
    rw [hfiles]
    exact ⟨file, hfile, hline⟩
  · exact nofun

theorem Rotation_Holds_mono {rotation : Rotation} (h : rotation.Holds cfg foreign s)
    (hbase : ∀ f, (cfg.base, f) ∈ s.disk.directory.names → (cfg.base, f) ∈ t.disk.directory.names)
    (hnames : ∀ name f, (name, f) ∈ t.disk.directory.names → name ≠ cfg.base →
      (name, f) ∈ s.disk.directory.names)
    (hcounter : t.rotateCounter = s.rotateCounter)
    (hfaulted : s.faulted = true → t.faulted = true) : rotation.Holds cfg foreign t := by
  cases rotation with
  | stat => trivial
  | statted size =>
      cases size with
      | none => trivial
      | some size =>
          obtain ⟨f, hf⟩ := h
          exact ⟨f, hbase f hf⟩
  | rename stamp seq =>
      obtain ⟨⟨f, hf⟩, hseq, hnew⟩ := h
      refine ⟨⟨f, hbase f hf⟩, hseq.trans hcounter.symm, ?_⟩
      intro stamp' g hg
      exact hnew stamp' g (hnames _ g hg (ne_base_of_isBackup (isBackup_backupName stamp' seq)))
  | renamed ok => exact fun hok => hfaulted (h hok)
  | readdir => trivial
  | listed names => trivial
  | unlink name rest => exact h
  | unlinked rest => exact h

/-- A step of a call that neither rotates nor writes a line. -/
theorem Serial.advance_plain (h : Serial cfg foreign s) (phase : Phase)
    (hcall : s.calls[i]? = some call)
    (hsame : phase.hasWritten = call.phase.hasWritten)
    (hrotates : ∀ rotation, call.phase ≠ .rotating rotation)
    (hcalls : t.calls = (s.put i phase).calls) (hpromise : t.rotatePromise = s.rotatePromise)
    (hcounter : t.rotateCounter = s.rotateCounter)
    (hfaulted : s.faulted = true → t.faulted = true) (hdisk : t.disk = s.disk)
    (hnext : phase.Holds cfg foreign t i) : Serial cfg foreign t := by
  refine h.advance phase hcall ?_
  refine ⟨hcalls, hpromise, hfaulted, ?_, Nat.le_of_eq (by rw [hdisk]), hnext, ?_, ?_, ?_, ?_, ?_⟩
  · rw [hdisk, hcounter]
    exact h.disk
  · intro j rotation _ _ hrotation
    refine Rotation_Holds_mono hrotation ?_ ?_ hcounter hfaulted
    · rw [hdisk]
      exact fun f hf => hf
    · rw [hdisk]
      exact fun name f hf _ => hf
  · exact fun rotation hrotation => absurd hrotation (hrotates rotation)
  · intro j
    have hwritten : t.written j = s.written j := written_eq_of_files (by rw [hdisk]) j
    rw [hwritten]
    exact h.written_eq hcall hsame j
  · intro f file line hfile hline
    rw [hdisk]
    exact ⟨file, hfile, hline⟩
  · intro hafter hbefore
    rw [hsame, hbefore] at hafter
    contradiction

/-! ### The file system -/

theorem faulted_mono {fault : Option Nat} (hfaulted : s.faulted = true) :
    (s.faulted || fault.isSome) = true := by
  rw [hfaulted, Bool.true_or]

theorem faulted_of_isNone {fault : Option Nat} (h : fault.isNone = false) :
    (s.faulted || fault.isSome) = true := by
  cases fault with
  | none => contradiction
  | some written => rw [Option.isSome_some, Bool.or_true]

/-- What the file system does for a rotation. -/
theorem Serial.performRotation (h : Serial cfg foreign s) (hcall : s.calls[i]? = some call)
    {rotation : Rotation} (hphase : call.phase = .rotating rotation) {fault : Option Nat}
    {disk : Disk} {phase : Phase}
    (hperform : s.disk.perform cfg i call.line fault (.rotating rotation) = some (disk, phase)) :
    Serial cfg foreign { s.put i phase with disk, faulted := s.faulted || fault.isSome } := by
  have hrotation : rotation.Holds cfg foreign s :=
    (h.phases i (.rotating rotation) (by rw [phase?_eq hcall, hphase])).2
  cases rotation with
  | stat =>
      obtain ⟨rfl, rfl⟩ := Prod.mk.inj (Option.some.inj hperform)
      refine h.advance_rotation hcall hphase rfl rfl faulted_mono h.disk rfl ?_
      cases fault with
      | some written => trivial
      | none =>
          rw [Option.isSome_none, if_neg Bool.false_ne_true]
          cases hfind : s.disk.directory.find? cfg.base with
          | none => trivial
          | some f =>
              rw [Option.bind_some]
              cases s.disk.directory.files[f]? with
              | none => trivial
              | some file => exact ⟨f, Directory.mem_of_find? hfind⟩
  | rename stamp seq =>
      obtain ⟨⟨f, hf⟩, rfl, hnew⟩ := hrotation
      obtain ⟨directory, hrename⟩ : ∃ directory, s.disk.directory.rename cfg.base
          (cfg.backupName stamp s.rotateCounter) = some directory :=
        ⟨_, Directory.rename_eq_some_iff.mpr ⟨f, h.disk.wellFormed.find?_eq hf, rfl⟩⟩
      cases fault with
      | none =>
          simp only [Disk.perform, hrename] at hperform
          obtain ⟨rfl, rfl⟩ := Prod.mk.inj (Option.some.inj hperform)
          exact h.advance_rotation hcall hphase rfl rfl faulted_mono (h.disk.rename hnew hrename)
            (Directory.rename_files hrename) nofun
      | some written =>
          simp only [Disk.perform] at hperform
          obtain ⟨rfl, rfl⟩ := Prod.mk.inj (Option.some.inj hperform)
          exact h.advance_rotation hcall hphase rfl rfl faulted_mono h.disk rfl
            fun _ => Bool.or_true _
  | readdir =>
      obtain ⟨rfl, rfl⟩ := Prod.mk.inj (Option.some.inj hperform)
      exact h.advance_rotation hcall hphase rfl rfl faulted_mono h.disk rfl trivial
  | unlink name rest =>
      obtain ⟨rfl, rfl⟩ := Prod.mk.inj (Option.some.inj hperform)
      obtain ⟨hname, hrest⟩ := List.forall_mem_cons.mp hrotation
      refine h.advance_rotation hcall hphase rfl rfl faulted_mono ?_ ?_ hrest
      · cases fault with
        | some written => exact h.disk
        | none => exact h.disk.unlink hname
      · cases fault with
        | some written => rfl
        | none => rfl
  | statted size => exact nomatch hperform
  | renamed ok => exact nomatch hperform
  | listed names => exact nomatch hperform
  | unlinked rest => exact nomatch hperform

/-- The file is opened, or made. -/
theorem Serial.openAppend (h : Serial cfg foreign s) (hcall : s.calls[i]? = some call)
    (hphase : call.phase = .append) :
    Serial cfg foreign
      { s.put i (.opened (s.disk.directory.openFile cfg.base File.empty).1) with
        disk := { s.disk with
          directory := (s.disk.directory.openFile cfg.base File.empty).2 } } := by
  have hopened := Directory.mem_openFile s.disk.directory cfg.base File.empty
  have hdisk := h.disk.openFile
  have hcases := Directory.openFile_cases s.disk.directory cfg.base File.empty
  generalize s.disk.directory.openFile cfg.base File.empty = opened at *
  obtain ⟨f, directory⟩ := opened
  have hnames : ∀ name g, (name, g) ∈ s.disk.directory.names → (name, g) ∈ directory.names := by
    rcases hcases with ⟨-, rfl⟩ | ⟨-, -, rfl⟩
    · exact fun name g hg => hg
    · exact fun name g hg => List.mem_append_left _ hg
  have hold : ∀ name g, (name, g) ∈ directory.names → name ≠ cfg.base →
      (name, g) ∈ s.disk.directory.names := by
    rcases hcases with ⟨-, rfl⟩ | ⟨-, -, rfl⟩
    · exact fun name g hg _ => hg
    · intro name g hg hne
      rcases List.mem_append.mp hg with hg | hg
      · exact hg
      · exact absurd (Prod.mk.inj (List.mem_singleton.mp hg)).1 hne
  have hfiles : ∃ more : List File, directory.files = s.disk.directory.files ++ more ∧
      more.flatMap (·.lines) = [] := by
    rcases hcases with ⟨-, rfl⟩ | ⟨-, -, rfl⟩
    · exact ⟨[], by rw [List.append_nil], rfl⟩
    · exact ⟨[File.empty], rfl, rfl⟩
  obtain ⟨more, hmore, hempty⟩ := hfiles
  refine h.advance (.opened f) hcall ?_
  refine ⟨rfl, rfl, id, hdisk, ?_, ?_, ?_, ?_, ?_, ?_, nofun⟩
  · rw [hmore, List.length_append]
    exact Nat.le_add_right _ _
  · exact ⟨hdisk.wellFormed.valid _ _ hopened, hdisk.current _ hopened⟩
  · intro j rotation _ _ hrotation
    exact Rotation_Holds_mono hrotation (hnames _) hold rfl id
  · intro rotation hrotation
    rw [hphase] at hrotation
    contradiction
  · intro j
    have hwritten : State.written { s.put i (.opened f) with disk := { s.disk with directory } } j =
        s.written j := by
      rw [State.written, State.written, hmore, List.flatMap_append, hempty, List.append_nil]
    rw [hwritten]
    refine h.written_eq hcall ?_ j
    rw [hphase]
    rfl
  · intro g file line hfile hline
    have hlt : g < s.disk.directory.files.length := (List.getElem?_eq_some_iff.mp hfile).1
    rw [hmore, List.getElem?_append_left hlt]
    exact ⟨file, hfile, hline⟩

/-- The line is written at the end of the file that was opened. -/
theorem Serial.writeAppend (h : Serial cfg foreign s) (hcall : s.calls[i]? = some call) {f : Nat}
    (hphase : call.phase = .opened f) {write : File → File} {ok : Bool} {faulted : Bool}
    (hwrite : ∀ file, (write file).lines =
      file.lines ++ if ok = true then [(i, call.line)] else [])
    (hfaulted : s.faulted = true → faulted = true) (hok : ok = false → faulted = true) :
    Serial cfg foreign
      { s.put i (.appended ok) with
        disk := { s.disk with directory := s.disk.directory.modify f write }, faulted } := by
  obtain ⟨hlt, hforeign⟩ : f < s.disk.directory.files.length ∧ f ∉ foreign :=
    h.phases i (.opened f) (by rw [phase?_eq hcall, hphase])
  have hdisk : Disk.Holds cfg foreign s.rotateCounter
      { s.disk with directory := s.disk.directory.modify f write } := h.disk.modify hforeign
  refine h.advance (.appended ok) hcall ?_
  refine ⟨rfl, rfl, hfaulted, hdisk, ?_, hok, ?_, ?_, ?_, ?_, ?_⟩
  · rw [Directory.modify, List.length_modify]
  · intro j rotation _ _ hrotation
    exact Rotation_Holds_mono hrotation (fun _ hg => hg) (fun _ _ hg _ => hg) rfl hfaulted
  · intro rotation hrotation
    rw [hphase] at hrotation
    contradiction
  · intro j
    have hbefore : s.written i = 0 := by
      rw [h.written, phase?_eq hcall, hphase]
      rfl
    cases ok with
    | true =>
        have hcount : State.written { s.put i (.appended true) with
            disk := { s.disk with directory := s.disk.directory.modify f write }, faulted } j =
              s.written j + (decide (i = j)).toNat := countP_modify hwrite hlt
        rw [hcount]
        by_cases hj : j = i
        · subst hj
          rw [hbefore, if_pos rfl]
          simp [Phase.hasWritten]
        · simp [hj, Ne.symm hj]
    | false =>
        have hsame : ∀ file, (write file).lines = file.lines := by
          intro file
          rw [hwrite, if_neg Bool.false_ne_true, List.append_nil]
        have hcount : State.written { s.put i (.appended false) with
            disk := { s.disk with directory := s.disk.directory.modify f write }, faulted } j =
              s.written j :=
          congrArg (List.countP _) (flatMap_modify hsame)
        rw [hcount]
        by_cases hj : j = i
        · subst hj
          rw [hbefore, if_pos rfl]
          rfl
        · rw [if_neg hj]
  · intro g file line hfile hline
    by_cases hg : g = f
    · subst hg
      refine ⟨write file, ?_, ?_⟩
      · rw [Directory.modify_getElem?_self, hfile]
        rfl
      · rw [hwrite]
        exact List.mem_append_left _ hline
    · rw [Directory.modify_getElem?_of_ne hg]
      exact ⟨file, hfile, hline⟩
  · intro hafter _
    obtain rfl : ok = true := by
      cases ok with
      | true => rfl
      | false => contradiction
    obtain ⟨file, hfile⟩ : ∃ file, s.disk.directory.files[f]? = some file :=
      ⟨_, List.getElem?_eq_getElem hlt⟩
    refine ⟨f, write file, ?_, ?_⟩
    · rw [Directory.modify_getElem?_self, hfile]
      rfl
    · rw [hwrite]
      exact List.mem_append_right _ List.mem_cons_self

theorem Serial.perform (h : Serial cfg foreign s) {fault : Option Nat}
    (hstep : s.perform cfg i fault = some t) : Serial cfg foreign t := by
  rw [State.perform] at hstep
  split at hstep
  · contradiction
  · next call hcall =>
    split at hstep
    · contradiction
    · next disk phase hperform =>
      obtain rfl := Option.some.inj hstep
      cases hphase : call.phase with
      | rotating rotation =>
          rw [hphase] at hperform
          exact h.performRotation hcall hphase hperform
      | mkdir =>
          rw [hphase] at hperform
          obtain ⟨rfl, rfl⟩ := Prod.mk.inj (Option.some.inj hperform)
          refine h.advance_plain (.madeDirectory fault.isNone) hcall ?_ ?_ rfl rfl rfl
            faulted_mono rfl faulted_of_isNone
          · rw [hphase]
            rfl
          · rw [hphase]
            exact nofun
      | append =>
          rw [hphase] at hperform
          cases fault with
          | none =>
              obtain ⟨rfl, rfl⟩ := Prod.mk.inj (Option.some.inj hperform)
              rw [Option.isSome_none, Bool.or_false]
              exact h.openAppend hcall hphase
          | some written =>
              obtain ⟨rfl, rfl⟩ := Prod.mk.inj (Option.some.inj hperform)
              refine h.advance_plain (.appended false) hcall ?_ ?_ rfl rfl rfl
                faulted_mono rfl fun _ => Bool.or_true _
              · rw [hphase]
                rfl
              · rw [hphase]
                exact nofun
      | opened f =>
          rw [hphase] at hperform
          cases fault with
          | none =>
              obtain ⟨rfl, rfl⟩ := Prod.mk.inj (Option.some.inj hperform)
              exact h.writeAppend hcall hphase (fun _ => rfl) faulted_mono nofun
          | some written =>
              obtain ⟨rfl, rfl⟩ := Prod.mk.inj (Option.some.inj hperform)
              refine h.writeAppend hcall hphase ?_ faulted_mono fun _ => Bool.or_true _
              exact fun file => (List.append_nil _).symm
      | waiting other =>
          rw [hphase] at hperform
          exact nomatch hperform
      | madeDirectory ok =>
          rw [hphase] at hperform
          exact nomatch hperform
      | appended ok =>
          rw [hphase] at hperform
          exact nomatch hperform
      | resolved =>
          rw [hphase] at hperform
          exact nomatch hperform
      | rejected =>
          rw [hphase] at hperform
          exact nomatch hperform

/-! ### The end of a rotation -/

theorem phase?_settle (s : State) (i : Nat) (ok : Bool) (j : Nat) :
    (s.settle cfg i ok).phase? j = (s.phase? j).map fun phase =>
      if j = i then if ok then cfg.afterRotation else .rejected
      else if phase = .waiting i then if ok then .rotating .stat else .rejected
      else phase := by
  rw [phase?, settle, List.getElem?_mapIdx, phase?]
  cases s.calls[j]? with
  | none => rfl
  | some call =>
      simp only [Option.map_some]
      split
      · rfl
      · split
        · rfl
        · rfl

theorem afterRotation_cases (cfg : Config) :
    cfg.afterRotation = .mkdir ∨ cfg.afterRotation = .append := by
  rw [Config.afterRotation]
  cases cfg.hasDirectory with
  | true => exact .inl rfl
  | false => exact .inr rfl

/-- What becomes of each call when the rotation of `i` settles. -/
theorem phase?_settle_cases {ok : Bool} (h : (s.settle cfg i ok).phase? j = some phase) :
    (j = i ∧ phase = if ok then cfg.afterRotation else .rejected) ∨
      (s.phase? j = some (.waiting i) ∧ phase = if ok then .rotating .stat else .rejected) ∨
        (j ≠ i ∧ s.phase? j = some phase ∧ phase ≠ .waiting i) := by
  rw [phase?_settle, Option.map_eq_some_iff] at h
  obtain ⟨before, hbefore, rfl⟩ := h
  by_cases hj : j = i
  · exact .inl ⟨hj, if_pos hj⟩
  · rw [if_neg hj]
    by_cases hwaits : before = .waiting i
    · rw [if_pos hwaits]
      exact .inr (.inl ⟨hwaits ▸ hbefore, rfl⟩)
    · rw [if_neg hwaits]
      exact .inr (.inr ⟨hj, hbefore, hwaits⟩)

/-- Nothing is written when a rotation settles. -/
theorem hasWritten_settle {rotation : Rotation} (hi : s.phase? i = some (.rotating rotation))
    {ok : Bool} :
    ((s.settle cfg i ok).phase? j).any Phase.hasWritten =
      (s.phase? j).any Phase.hasWritten := by
  have hafter : cfg.afterRotation.hasWritten = false := by
    rcases afterRotation_cases cfg with hafter | hafter
    · rw [hafter]
      rfl
    · rw [hafter]
      rfl
  rw [phase?_settle]
  by_cases hj : j = i
  · subst hj
    rw [hi, Option.map_some, if_pos rfl]
    cases ok with
    | true => exact hafter
    | false => rfl
  · cases hphase : s.phase? j with
    | none => rfl
    | some before =>
        rw [Option.map_some, if_neg hj]
        by_cases hwaits : before = .waiting i
        · rw [if_pos hwaits, hwaits]
          cases ok with
          | true => rfl
          | false => rfl
        · rw [if_neg hwaits]

theorem getLast?_waiters (hone : (s.waiters i).length ≤ 1) (hj : j ∈ s.waiters i) :
    (s.waiters i).getLast? = some j := by
  have honly : s.waiters i = [j] := by
    match hlist : s.waiters i with
    | [] =>
        rw [hlist] at hj
        contradiction
    | [k] =>
        rw [hlist] at hj
        rw [List.mem_singleton.mp hj]
    | k :: l :: rest =>
        rw [hlist] at hone
        simp at hone
  rw [honly]
  rfl

theorem Serial.settle (h : Serial cfg foreign s) {rotation : Rotation}
    (hi : s.phase? i = some (.rotating rotation)) {ok faulted : Bool} {disk : Disk}
    (hone : ok = true → (s.waiters i).length ≤ 1)
    (hfaulted : s.faulted = true → faulted = true) (hok : ok = false → faulted = true)
    (hdisk : disk.Holds cfg foreign s.rotateCounter)
    (hfiles : disk.directory.files = s.disk.directory.files) :
    Serial cfg foreign { s.settle cfg i ok with disk, faulted } := by
  have hpromise : s.rotatePromise = some i := (h.phases i _ hi).1
  have hphase (j : Nat) : State.phase? { s.settle cfg i ok with disk, faulted } j =
      (s.settle cfg i ok).phase? j := rfl
  refine ⟨hdisk, ?_, ?_, ?_, ?_⟩
  · intro j phase hj
    rw [hphase] at hj
    rcases phase?_settle_cases hj with ⟨-, rfl⟩ | ⟨hwaits, rfl⟩ | ⟨hne, hbefore, hwaits⟩
    · cases ok with
      | true =>
          rw [if_pos rfl]
          rcases afterRotation_cases cfg with hafter | hafter
          · rw [hafter]
            trivial
          · rw [hafter]
            trivial
      | false => exact hok rfl
    · cases ok with
      | true => exact ⟨getLast?_waiters (hone rfl) (mem_waiters_iff.mpr hwaits), trivial⟩
      | false => exact hok rfl
    · refine Phase_Holds_frame (h.phases j phase hbefore) ?_ ?_ hfaulted
        (Nat.le_of_eq (by rw [hfiles]))
      · rintro other rfl
        have hother : s.rotatePromise = some other := h.phases j _ hbefore
        obtain rfl := Option.some.inj (hpromise.symm.trans hother)
        exact hwaits rfl
      · rintro other rfl
        exact hne (h.eq_of_rotating hi hbefore)
  · intro j hj
    cases ok with
    | false => exact nomatch hj
    | true =>
        have hlast : (s.waiters i).getLast? = some j := hj
        have hwaits : s.phase? j = some (.waiting i) :=
          mem_waiters_iff.mp (List.mem_of_getLast? hlast)
        have hne : j ≠ i := by
          rintro rfl
          exact nomatch Option.some.inj (hi.symm.trans hwaits)
        refine ⟨.stat, ?_⟩
        rw [hphase, phase?_settle, hwaits, Option.map_some, if_neg hne]
        simp
  · intro j
    have hwritten : State.written { s.settle cfg i ok with disk, faulted } j = s.written j :=
      written_eq_of_files hfiles j
    rw [hwritten, hphase, hasWritten_settle hi]
    exact h.written j
  · intro j call hcall hwritten
    have hafter : (s.settle cfg i ok).phase? j = some call.phase := phase?_eq hcall
    obtain ⟨before, hbefore, hsame⟩ : ∃ before, s.calls[j]? = some before ∧
        before.payload = call.payload := by
      have hmap := hcall
      rw [State.settle, List.getElem?_mapIdx, Option.map_eq_some_iff] at hmap
      obtain ⟨before, hbefore, rfl⟩ := hmap
      refine ⟨before, hbefore, ?_⟩
      split
      · rfl
      · split
        · rfl
        · rfl
    have hline : before.line = call.line := by rw [Call.line, Call.line, hsame]
    have hold : before.phase.hasWritten = true := by
      have hany : ((s.settle cfg i ok).phase? j).any Phase.hasWritten = true := by
        rw [hafter]
        exact hwritten
      rw [hasWritten_settle hi, phase?_eq hbefore] at hany
      exact hany
    rw [← hline, hfiles]
    exact h.kept j before hbefore hold

/-! ### Callbacks and calls -/

/-- What a rotation waits for next has what it relies on. -/
theorem Serial.resume (h : Serial cfg foreign s) {rotation next : Rotation} {now : Nat}
    (hi : s.phase? i = some (.rotating rotation))
    (hresume : rotation.resume cfg now s.rotateCounter = some (.waits next)) :
    s.rotateCounter ≤ next.counter s.rotateCounter ∧ ∀ t : State, t.disk = s.disk →
      t.rotateCounter = next.counter s.rotateCounter → next.Holds cfg foreign t := by
  have hrotation : rotation.Holds cfg foreign s := (h.phases i _ hi).2
  have hunlink : ∀ names : List Text, (∀ name ∈ names, cfg.isBackup name = true) →
      some (unlinkNext names) = some (.waits next) →
      s.rotateCounter ≤ next.counter s.rotateCounter ∧ ∀ t : State, t.disk = s.disk →
        t.rotateCounter = next.counter s.rotateCounter → next.Holds cfg foreign t := by
    intro names hnames hnext
    cases names with
    | nil => exact nomatch hnext
    | cons name rest =>
        obtain rfl := Resumed.waits.inj (Option.some.inj hnext)
        exact ⟨Nat.le_refl _, fun _ _ _ => hnames⟩
  cases rotation with
  | stat => exact nomatch hresume
  | statted size =>
      cases size with
      | none => exact nomatch hresume
      | some size =>
          rw [Rotation.resume] at hresume
          split at hresume
          · exact nomatch hresume
          · obtain rfl := Resumed.waits.inj (Option.some.inj hresume)
            refine ⟨Nat.le_succ _, ?_⟩
            intro t hdisk hcounter
            rw [Rotation.Holds, hdisk, hcounter]
            refine ⟨hrotation, rfl, ?_⟩
            intro stamp f hname
            by_contra hforeign
            exact Nat.not_succ_le_self _ (h.disk.numbered stamp _ f hname hforeign)
  | rename stamp seq => exact nomatch hresume
  | renamed ok =>
      cases ok with
      | false => exact nomatch hresume
      | true =>
          rw [Rotation.resume] at hresume
          split at hresume
          · exact nomatch hresume
          · obtain rfl := Resumed.waits.inj (Option.some.inj hresume)
            exact ⟨Nat.le_refl _, fun _ _ _ => trivial⟩
  | readdir => exact nomatch hresume
  | listed names =>
      cases names with
      | none => exact nomatch hresume
      | some names => exact hunlink _ (fun _ => isBackup_of_mem_expiredBackups) hresume
  | unlink name rest => exact nomatch hresume
  | unlinked rest => exact hunlink _ hrotation hresume

/-- Only a rotation that could not rename its file is rejected. -/
theorem Serial.faulted_of_rejects (h : Serial cfg foreign s) {rotation : Rotation} {now : Nat}
    (hi : s.phase? i = some (.rotating rotation))
    (hresume : rotation.resume cfg now s.rotateCounter = some (.settles false)) :
    s.faulted = true := by
  have hrotation : rotation.Holds cfg foreign s := (h.phases i _ hi).2
  have hunlink : ∀ names : List Text, some (unlinkNext names) ≠ some (.settles false) := by
    intro names
    cases names with
    | nil => simp [unlinkNext]
    | cons name rest => simp [unlinkNext]
  cases rotation with
  | statted size =>
      cases size with
      | none => exact nomatch hresume
      | some size =>
          rw [Rotation.resume] at hresume
          split at hresume
          · exact nomatch hresume
          · exact nomatch hresume
  | renamed ok =>
      cases ok with
      | false => exact hrotation rfl
      | true =>
          rw [Rotation.resume] at hresume
          split at hresume
          · exact nomatch hresume
          · exact nomatch hresume
  | listed names =>
      cases names with
      | none => exact nomatch hresume
      | some names => exact absurd hresume (hunlink _)
  | unlinked rest => exact absurd hresume (hunlink _)
  | stat => exact nomatch hresume
  | rename stamp seq => exact nomatch hresume
  | readdir => exact nomatch hresume
  | unlink name rest => exact nomatch hresume

theorem Serial.callbackRotation (h : Serial cfg foreign s) {rotation : Rotation} {now : Nat}
    {kept : List Text} (hi : s.phase? i = some (.rotating rotation))
    (hone : s.fulfils cfg i now = true → (s.waiters i).length ≤ 1)
    (hstep : s.callbackRotation cfg i now kept rotation = some t) : Serial cfg foreign t := by
  rw [State.callbackRotation] at hstep
  split at hstep
  · contradiction
  · next next hresume =>
    obtain rfl := Option.some.inj hstep
    obtain ⟨hcounter, hnext⟩ := h.resume hi hresume
    obtain ⟨call, hcall, hphase⟩ := Option.map_eq_some_iff.mp hi
    refine h.advance_rotation hcall hphase rfl rfl id (h.disk.mono hcounter) rfl ?_
    exact hnext _ rfl rfl
  · next ok hresume =>
    have hwakes : ok = true → (s.waiters i).length ≤ 1 := by
      rintro rfl
      refine hone ?_
      rw [fulfils, hi]
      exact decide_eq_true hresume
    have hrejects : ok = false → s.faulted = true := by
      rintro rfl
      exact h.faulted_of_rejects hi hresume
    split at hstep
    · obtain rfl := Option.some.inj hstep
      refine h.settle hi hwakes (fun hfaulted => ?_) (fun hok => ?_)
        (h.disk.cleanupOldBackups kept) (Disk.unlinkAll_files _ _)
      · rw [hfaulted, Bool.true_or]
      · rw [hrejects hok, Bool.true_or]
    · obtain rfl := Option.some.inj hstep
      exact h.settle hi hwakes id hrejects h.disk rfl

theorem Serial.callback (h : Serial cfg foreign s) {now : Nat} {kept : List Text}
    (hone : s.fulfils cfg i now = true → (s.waiters i).length ≤ 1)
    (hstep : s.callback cfg i now kept = some t) : Serial cfg foreign t := by
  rw [State.callback] at hstep
  split at hstep
  · next rotation hi => exact h.callbackRotation hi hone hstep
  · next ok hi =>
    obtain ⟨call, hcall, hphase⟩ := Option.map_eq_some_iff.mp hi
    obtain rfl := Option.some.inj hstep
    have hok : ok = false → s.faulted = true := h.phases i _ hi
    refine h.advance_plain _ hcall ?_ (by rw [hphase]; exact nofun) rfl rfl rfl id rfl ?_
    · rw [hphase]
      cases ok with
      | true => rfl
      | false => rfl
    · cases ok with
      | true => trivial
      | false => exact hok rfl
  · next ok hi =>
    obtain ⟨call, hcall, hphase⟩ := Option.map_eq_some_iff.mp hi
    obtain rfl := Option.some.inj hstep
    have hok : ok = false → s.faulted = true := h.phases i _ hi
    refine h.advance_plain _ hcall ?_ (by rw [hphase]; exact nofun) rfl rfl rfl id rfl ?_
    · rw [hphase]
      cases ok with
      | true => rfl
      | false => rfl
    · cases ok with
      | true => trivial
      | false => exact hok rfl
  · contradiction

theorem phase?_push (hcalls : t.calls = s.calls ++ [call]) (j : Nat) :
    t.phase? j = if j = s.calls.length then some call.phase else s.phase? j := by
  rw [phase?, phase?, hcalls, List.getElem?_append]
  by_cases hlt : j < s.calls.length
  · rw [if_pos hlt, if_neg (Nat.ne_of_lt hlt)]
  · rw [if_neg hlt]
    by_cases hj : j = s.calls.length
    · subst hj
      simp
    · have hbeyond : s.calls[j]? = none := List.getElem?_eq_none (Nat.not_lt.mp hlt)
      have hlast : [call][j - s.calls.length]? = none := by
        apply List.getElem?_eq_none
        rw [List.length_singleton]
        omega
      rw [if_neg hj, hbeyond, hlast]

/-- A new call, with what it does to `rotatePromise`. -/
theorem Serial.push (h : Serial cfg foreign s) (call : Call) (hcalls : t.calls = s.calls ++ [call])
    (hdisk : t.disk = s.disk) (hcounter : t.rotateCounter = s.rotateCounter)
    (hnew : call.phase.hasWritten = false)
    (hholds : call.phase.Holds cfg foreign t s.calls.length)
    (hold : ∀ j phase, s.phase? j = some phase → phase.Holds cfg foreign t j)
    (hlive : ∀ j, t.rotatePromise = some j → s.rotatePromise = some j ∨
      j = s.calls.length ∧ ∃ rotation, call.phase = .rotating rotation) :
    Serial cfg foreign t := by
  have hlast : s.phase? s.calls.length = none := by
    rw [phase?, List.getElem?_eq_none (Nat.le_refl _)]
    rfl
  refine ⟨?_, ?_, ?_, ?_, ?_⟩
  · rw [hdisk, hcounter]
    exact h.disk
  · intro j phase hj
    rw [phase?_push hcalls] at hj
    split at hj
    · next heq =>
      subst heq
      obtain rfl := Option.some.inj hj
      exact hholds
    · exact hold j phase hj
  · intro j hj
    rw [phase?_push hcalls]
    rcases hlive j hj with hbefore | ⟨rfl, rotation, hrotation⟩
    · obtain ⟨rotation, hrotation⟩ := h.live j hbefore
      have hne : j ≠ s.calls.length := by
        rintro rfl
        rw [hlast] at hrotation
        contradiction
      rw [if_neg hne]
      exact ⟨rotation, hrotation⟩
    · rw [if_pos rfl, hrotation]
      exact ⟨rotation, rfl⟩
  · intro j
    have hwritten : t.written j = s.written j := written_eq_of_files (by rw [hdisk]) j
    rw [hwritten, h.written, phase?_push hcalls]
    split
    · next heq =>
      rw [heq, hlast, Option.any_some, hnew]
      rfl
    · rfl
  · intro j other hother hwritten
    rw [hdisk]
    rw [hcalls, List.getElem?_append] at hother
    split at hother
    · exact h.kept j other hother hwritten
    · obtain rfl := List.mem_singleton.mp (List.mem_of_getElem? hother)
      rw [hnew] at hwritten
      contradiction

theorem Serial.send (h : Serial cfg foreign s) (payload : Bytes) :
    Serial cfg foreign (s.send payload) := by
  cases hpromise : s.rotatePromise with
  | some other =>
      have hsend : s.send payload =
          { s with calls := s.calls ++ [{ payload, phase := .waiting other }] } := by
        rw [State.send, hpromise]
      rw [hsend]
      refine h.push { payload, phase := .waiting other } rfl rfl rfl rfl hpromise ?_
        fun j hj => .inl hj
      intro j phase hj
      refine Phase_Holds_mono (h.phases j phase hj) rfl id (Nat.le_refl _) ?_
      exact fun rotation _ hrotation =>
        Rotation_Holds_mono hrotation (fun _ hf => hf) (fun _ _ hf _ => hf) rfl id
  | none =>
      have hsend : s.send payload =
          { s with
            calls := s.calls ++ [{ payload, phase := .rotating .stat }]
            rotatePromise := some s.calls.length } := by
        rw [State.send, hpromise]
      rw [hsend]
      refine h.push { payload, phase := .rotating .stat } rfl rfl rfl rfl ⟨rfl, trivial⟩
        ?_ fun j hj => .inr ⟨(Option.some.inj hj).symm, .stat, rfl⟩
      intro j phase hj
      have hholds := h.phases j phase hj
      refine Phase_Holds_frame hholds ?_ ?_ id (Nat.le_refl _)
      · rintro other rfl
        exact nomatch hpromise.symm.trans hholds
      · rintro rotation rfl
        exact nomatch hpromise.symm.trans hholds.1

theorem Serial.step (h : Serial cfg foreign s) {a : Action} (hwakes : s.WakesOne cfg a)
    (hstep : s.step cfg a = some t) : Serial cfg foreign t := by
  cases a with
  | send payload =>
      obtain rfl := Option.some.inj hstep
      exact h.send payload
  | perform i fault => exact h.perform hstep
  | callback i now kept => exact h.callback hwakes hstep

/-- The files besides the current one. -/
def otherFiles (cfg : Config) (s : State) : List Nat :=
  (List.range s.disk.directory.files.length).filter fun f =>
    (cfg.base, f) ∉ s.disk.directory.names

theorem current_of_notMem {f : Nat} (hlt : f < s.disk.directory.files.length)
    (h : f ∉ otherFiles cfg s) : (cfg.base, f) ∈ s.disk.directory.names := by
  by_contra hname
  exact h (List.mem_filter.mpr ⟨List.mem_range.mpr hlt, decide_eq_true hname⟩)

theorem serial_of_init (h : (system cfg).init s) : Serial cfg (otherFiles cfg s) s := by
  have hinit : Initial cfg s := h
  have hcall (i : Nat) : s.calls[i]? = none := by
    rw [hinit.calls]
    rfl
  have hphase (i : Nat) : s.phase? i = none := by
    rw [phase?, hcall]
    rfl
  have hlines : ∀ (f : Nat) (file : File), s.disk.directory.files[f]? = some file →
      file.lines = [] :=
    fun f file hfile => hinit.lines file (List.mem_of_getElem? hfile)
  refine ⟨⟨hinit.wellFormed, ?_, ?_, ?_, ?_, ?_⟩, ?_, ?_, ?_, ?_⟩
  · intro f hf
    exact List.mem_range.mp (List.mem_filter.mp hf).1
  · intro f hname hf
    exact of_decide_eq_true (List.mem_filter.mp hf).2 hname
  · exact fun f hlt hf => .inr (.inl (current_of_notMem hlt hf))
  · intro stamp seq f hname hf
    have hcurrent := current_of_notMem (hinit.wellFormed.valid _ f hname) hf
    exact absurd (hinit.unlinked _ f hname hcurrent)
      (ne_base_of_isBackup (isBackup_backupName stamp seq))
  · exact fun f file hfile hne => absurd (hlines f file hfile) hne
  · intro i phase hi
    rw [hphase] at hi
    contradiction
  · intro i hi
    rw [hinit.rotatePromise] at hi
    contradiction
  · intro i
    have hempty : s.disk.directory.files.flatMap (·.lines) = [] :=
      List.flatMap_eq_nil_iff.mpr hinit.lines
    rw [State.written, hempty, hphase]
    rfl
  · intro i call hi
    rw [hcall] at hi
    contradiction

/-- Two calls that wait for one rotation start two. -/
theorem wakesOne_of_single {a : Action} (hstep : s.step cfg a = some t)
    (hsingle : t.inFlight.length ≤ 1) : s.WakesOne cfg a := by
  cases a with
  | send payload => trivial
  | perform i fault => trivial
  | callback i now kept =>
      intro hfulfils
      rw [length_le_one_iff (s.waiters_nodup i)]
      intro a ha b hb
      rw [fulfils] at hfulfils
      split at hfulfils
      · next rotation hi =>
        have hresume := of_decide_eq_true hfulfils
        have hcallback : s.callbackRotation cfg i now kept rotation = some t := by
          rw [State.step, State.callback, hi] at hstep
          exact hstep
        have hphases (j : Nat) : t.phase? j = (s.settle cfg i true).phase? j := by
          rw [State.callbackRotation, hresume] at hcallback
          dsimp only at hcallback
          split at hcallback
          · rw [← Option.some.inj hcallback]
            rfl
          · rw [← Option.some.inj hcallback]
        have hstarts (j : Nat) (hj : j ∈ s.waiters i) : j ∈ t.inFlight := by
          have hwaits := mem_waiters_iff.mp hj
          have hne : j ≠ i := by
            rintro rfl
            exact nomatch Option.some.inj (hi.symm.trans hwaits)
          refine mem_inFlight_iff.mpr ⟨.stat, ?_⟩
          rw [hphases, phase?_settle, hwaits, Option.map_some, if_neg hne]
          simp
        exact (length_le_one_iff t.inFlight_nodup).mp hsingle a (hstarts a ha) b (hstarts b hb)
      · contradiction

theorem serial_preserved :
    (system cfg).Preserved (WakesOne cfg) (fun s => ∃ foreign, Serial cfg foreign s) where
  init s hs := ⟨otherFiles cfg s, serial_of_init hs⟩
  step _ _ _ h hwakes hstep := by
    obtain ⟨foreign, h⟩ := h
    exact ⟨foreign, h.step hwakes hstep⟩

/-- A transport that rotates a file of more than ten bytes. -/
def exampleConfig (inWorker : Bool) : Config where
  base := "events.jsonl"
  hasDirectory := true
  maxSizeBytes := 10
  maxBackups := 1
  inWorker

def opened : State where
  disk := { directory := { names := [], files := [] }, cleaned := [] }
  calls := []
  rotatePromise := none
  rotateCounter := 0
  faulted := false

theorem opened_initial (inWorker : Bool) : (system (exampleConfig inWorker)).init opened where
  wellFormed := ⟨List.nodup_nil, nofun⟩
  unlinked := nofun
  lines := nofun
  calls := rfl
  rotatePromise := rfl
  rotateCounter := rfl

def payload (text : Text) : Bytes := Bytes.ofText text

/-- From the end of its rotation to the end of the call. -/
def appendSteps (i : Nat) : List Action :=
  [.perform i none, .callback i 0 [], .perform i none, .perform i none, .callback i 0 []]

/-- The second of two calls rotates what the first one has written. -/
def twoCallsRun : List Action :=
  [.send (payload "first payload"), .send (payload "second payload"), .perform 0 none,
    .callback 0 0 []] ++ appendSteps 0 ++
    [.perform 1 none, .callback 1 1767225600000 [], .perform 1 none, .callback 1 0 [],
      .perform 1 none, .callback 1 0 []] ++ appendSteps 1

/-- The second and the third of three calls wait for the first one's rotation, and both see what it
has written then. -/
def threeCallsRun : List Action :=
  [.send (payload "first payload"), .send (payload "second payload"), .send (payload "third"),
    .perform 0 none, .callback 0 0 []] ++ appendSteps 0 ++
    [.perform 1 none, .perform 2 none, .callback 1 1767225600000 [],
      .callback 2 1767225600000 [], .perform 1 none, .perform 2 none, .callback 2 0 []]

end State

end ErrorCore.FileTransport
