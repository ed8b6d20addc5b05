import ErrorCore.Foundation.Json.NullCharacter
import ErrorCore.Ui.NdjsonReader

/-!
# Agreement of index and lookup

The index adds up the lengths of decoded lines, each with a newline. These are
the offsets of the file as long as decoding replaces nothing, and the last line
has no newline to read unless the file ends in one.
-/

namespace ErrorCore

namespace NdjsonReader

open Json (Value)

/-! ## What the index holds -/

section Index

variable {rt : ReaderRuntime} {b : Building} {line id : Text} {texts : List Text}
variable {entry : IndexEntry}

/-- The bytes that decoded lines are taken to have. -/
def offsetOf : List Text → Nat
  | [] => 0
  | line :: rest => lineBytes line + offsetOf rest

/-- The entry of a record on a line that starts at an offset. -/
def entryAt (rt : ReaderRuntime) (offset : Nat) (line : Text) (record : Value) : IndexEntry where
  offset
  length := lineBytes line
  summary := summarize (contentId rt line) record
  record

theorem indexLine_offset : (indexLine rt b line).offset = b.offset + lineBytes line := by
  unfold indexLine
  split
  · rfl
  · split <;> rfl

theorem indexLine_index :
    (indexLine rt b line).index =
      match record? rt line with
      | none => b.index
      | some record =>
          InsertionMap.set b.index (contentId rt line) (entryAt rt b.offset line record) := by
  unfold indexLine record?
  cases object? rt line with
  | none => rfl
  | some pkg =>
      by_cases hblob : isPayloadBlob pkg = true
      · simp only [hblob, if_true]
      · simp only [hblob, Bool.false_eq_true, if_false]
        rfl

/-- The entry of the last record with an id, in lines that start at an offset. -/
def lastIndexed? (rt : ReaderRuntime) (id : Text) : Nat → List Text → Option IndexEntry
  | _, [] => none
  | offset, line :: rest =>
      (lastIndexed? rt id (offset + lineBytes line) rest).or
        (match record? rt line with
        | none => none
        | some record =>
            if contentId rt line = id then some (entryAt rt offset line record) else none)

theorem get?_foldl (rt : ReaderRuntime) (id : Text) (texts : List Text) (b : Building) :
    InsertionMap.get? (texts.foldl (indexLine rt) b).index id =
      (lastIndexed? rt id b.offset texts).or (InsertionMap.get? b.index id) := by
  induction texts generalizing b with
  | nil => rfl
  | cons line rest ih =>
      rw [List.foldl_cons, ih, indexLine_offset, indexLine_index, lastIndexed?]
      cases record? rt line with
      | none => rw [Option.or_none]
      | some record =>
          by_cases hid : contentId rt line = id
          · simp only [hid, if_true, InsertionMap.get?_set_self]
            cases lastIndexed? rt id (b.offset + lineBytes line) rest <;> rfl
          · simp only [hid, if_false, InsertionMap.get?_set_of_ne hid, Option.or_none]

theorem nodup_foldl (texts : List Text) (b : Building) (h : (b.index.map (·.1)).Nodup) :
    ((texts.foldl (indexLine rt) b).index.map (·.1)).Nodup := by
  induction texts generalizing b with
  | nil => exact h
  | cons line rest ih =>
      apply ih
      rw [indexLine_index]
      cases record? rt line with
      | none => exact h
      | some record => exact InsertionMap.nodup_keys_set h

/-- A line whose record is the last one with its id. -/
structure LastRecord (rt : ReaderRuntime) (texts pre : List Text) (line : Text)
    (post : List Text) (record : Value) : Prop where
  split : texts = pre ++ line :: post
  record : record? rt line = some record
  last : ∀ other ∈ post, (record? rt other).isSome → contentId rt other ≠ contentId rt line

theorem lastIndexed?_eq_none_iff {offset : Nat} :
    lastIndexed? rt id offset texts = none ↔
      ∀ other ∈ texts, (record? rt other).isSome → contentId rt other ≠ id := by
  induction texts generalizing offset with
  | nil => simp [lastIndexed?]
  | cons line rest ih =>
      rw [lastIndexed?, Option.or_eq_none_iff, ih, List.forall_mem_cons, and_comm]
      refine and_congr_left fun _ => ?_
      cases record? rt line with
      | none => simp
      | some record =>
          by_cases hid : contentId rt line = id
          · simp [hid]
          · simp [hid]

theorem LastRecord.cons {pre post : List Text} {record : Value} {first : Text}
    (h : LastRecord rt texts pre line post record) :
    LastRecord rt (first :: texts) (first :: pre) line post record :=
  ⟨by rw [h.split, List.cons_append], h.record, h.last⟩

/-- The last record with an id decides the entry of the id. -/
theorem LastRecord.lastIndexed? {pre post : List Text} {record : Value} {offset : Nat}
    (h : LastRecord rt texts pre line post record) :
    lastIndexed? rt (contentId rt line) offset texts =
      some (entryAt rt (offset + offsetOf pre) line record) := by
  obtain ⟨rfl, hrecord, hlast⟩ := h
  induction pre generalizing offset with
  | nil =>
      rw [List.nil_append, NdjsonReader.lastIndexed?, lastIndexed?_eq_none_iff.mpr hlast, hrecord]
      simp only [if_true, Option.none_or, offsetOf, Nat.add_zero]
  | cons first pre ih =>
      rw [List.cons_append, NdjsonReader.lastIndexed?, ih, Option.some_or, offsetOf, Nat.add_assoc]

/-- An entry is that of the last record with its id. -/
theorem exists_lastRecord {offset : Nat} (h : lastIndexed? rt id offset texts = some entry) :
    ∃ pre line post record, LastRecord rt texts pre line post record ∧ contentId rt line = id ∧
      entry = entryAt rt (offset + offsetOf pre) line record := by
  induction texts generalizing offset with
  | nil => cases h
  | cons first rest ih =>
      rw [NdjsonReader.lastIndexed?] at h
      cases hrest : NdjsonReader.lastIndexed? rt id (offset + lineBytes first) rest with
      | some found =>
          rw [hrest, Option.some_or] at h
          obtain ⟨pre, line, post, record, hlast, hid, hentry⟩ := ih (hrest.trans h)
          refine ⟨first :: pre, line, post, record, hlast.cons, hid, ?_⟩
          rw [hentry, offsetOf, Nat.add_assoc]
      | none =>
          rw [hrest, Option.none_or] at h
          cases hrecord : record? rt first with
          | none =>
              rw [hrecord] at h
              cases h
          | some record =>
              simp only [hrecord] at h
              split at h
              · next hid =>
                  refine ⟨[], first, rest, record, ⟨rfl, hrecord, ?_⟩, hid, ?_⟩
                  · rw [hid]
                    exact lastIndexed?_eq_none_iff.mp hrest
                  · exact (Option.some.inj h).symm
              · cases h

end Index

/-! ## What a lookup reads -/

section Windows

variable {bytes line : Bytes} {pre post : List Bytes}

/-- Decoding replaces nothing, so that the text takes the bytes of the line. -/
def Faithful (line : Bytes) : Prop := Text.byteLength (Bytes.decode line) = line.length

theorem lineBytes_eq (line : Text) : lineBytes line = Text.byteLength line + 1 := by
  rw [lineBytes, Text.byteLength_append]
  rfl

theorem Faithful.lineBytes (h : Faithful line) :
    lineBytes (Bytes.decode line) = line.length + 1 := by
  rw [lineBytes_eq, h]

theorem faithful_ofText (text : Text) : Faithful (Bytes.ofText text) := by
  rw [Faithful, Bytes.decode_ofText, Bytes.length_ofText]

theorem offsetOf_decode (h : ∀ other ∈ pre, Faithful other) :
    offsetOf (pre.map Bytes.decode) = Bytes.size pre := by
  induction pre with
  | nil => rfl
  | cons first pre ih =>
      rw [List.map_cons, offsetOf, Bytes.size, (h first List.mem_cons_self).lineBytes,
        ih fun other hmem => h other (List.mem_cons_of_mem _ hmem)]

theorem readWindow_eq {offset length : Nat} {chunk : Bytes}
    (h : (bytes.drop offset).take length = chunk) :
    readWindow bytes offset length =
      chunk ++ List.replicate (length - chunk.length) (Bytes.byte 0) := by
  rw [← h]
  rfl

/-- The window of a line that a newline ends. -/
theorem readWindow_of_newline (h : Bytes.lines bytes = pre ++ line :: post) (hpost : post ≠ []) :
    readWindow bytes (Bytes.size pre) (line.length + 1) = line ++ [Bytes.newline] := by
  rcases Bytes.lines_eq_cons (Bytes.lines_drop_size h) with ⟨hnil, -⟩ | ⟨rest, hdrop, -⟩
  · exact absurd hnil hpost
  · have hchunk : (bytes.drop (Bytes.size pre)).take (line.length + 1) =
        line ++ [Bytes.newline] := by
      rw [hdrop, List.take_length_add_append]
      rfl
    rw [readWindow_eq hchunk, List.length_append, List.length_singleton, Nat.sub_self]
    exact List.append_nil _

/-- The window of an open line ends in a byte that is not in the file. -/
theorem readWindow_of_open (h : Bytes.lines bytes = pre ++ [line]) :
    readWindow bytes (Bytes.size pre) (line.length + 1) = line ++ [Bytes.byte 0] := by
  rcases Bytes.lines_eq_cons (Bytes.lines_drop_size h) with ⟨-, hdrop⟩ | ⟨rest, -, hrest⟩
  · have hchunk : (bytes.drop (Bytes.size pre)).take (line.length + 1) = line := by
      rw [hdrop, List.take_of_length_le (Nat.le_succ _)]
    rw [readWindow_eq hchunk, Nat.add_sub_cancel_left]
    rfl
  · exact absurd hrest (List.splitOn_ne_nil _ _)

theorem trim_append_newline (text : Text) : Text.trim (text ++ ['\n']) = Text.trim text := by
  unfold Text.trim
  rw [List.dropWhile_append]
  split
  · next hempty =>
      rw [List.isEmpty_iff.mp hempty]
      rfl
  · rw [List.reverse_append]
    rfl

/-- A NUL is no white space. -/
theorem nul_mem_trim (text : Text) : Json.nul ∈ Text.trim (text ++ [Json.nul]) := by
  have hspace : Text.isWhitespace Json.nul = false := rfl
  have htail : ∃ kept, (text ++ [Json.nul]).dropWhile Text.isWhitespace = kept ++ [Json.nul] := by
    rw [List.dropWhile_append]
    split
    · exact ⟨[], rfl⟩
    · exact ⟨_, rfl⟩
  obtain ⟨kept, hkept⟩ := htail
  rw [Text.trim, hkept, List.reverse_append, List.reverse_singleton, List.singleton_append,
    List.dropWhile_cons, hspace, if_neg Bool.false_ne_true, List.mem_reverse]
  exact List.mem_cons_self

end Windows

/-! ## Reading back -/

section Reading

variable {rt : ReaderRuntime} {bytes line : Bytes} {pre post : List Bytes} {record : Value}

/-- Each id that is listed is read back as the record of its summary. -/
def ReadsBack (rt : ReaderRuntime) (bytes : Bytes) (reader : Reader) : Prop :=
  ∀ id entry, (id, entry) ∈ reader.index →
    entry.summary = summarize id entry.record ∧ entry.record ≠ .null ∧
      getById rt reader bytes id = some entry.record

/-- The last record with an id stands where the index takes it to stand, and a newline ends it. -/
def Aligned (rt : ReaderRuntime) (bytes : Bytes) : Prop :=
  ∀ pre line post record, Bytes.lines bytes = pre ++ line :: post →
    LastRecord rt ((Bytes.lines bytes).map Bytes.decode) (pre.map Bytes.decode)
      (Bytes.decode line) (post.map Bytes.decode) record →
    (∀ other ∈ pre, Faithful other) ∧ Faithful line ∧ post ≠ []

theorem object?_eq_some {text : Text} {found : Value} (h : object? rt text = some found) :
    parseLine rt (Text.trim text) = found ∧ found ≠ .null := by
  unfold object? at h
  split at h
  · cases h
  · simp only at h
    split at h
    · next hobject =>
        obtain rfl := Option.some.inj h
        refine ⟨rfl, ?_⟩
        intro hnull
        rw [hnull] at hobject
        cases hobject
    · cases h

theorem record?_eq_some {text : Text} (h : record? rt text = some record) :
    parseLine rt (Text.trim text) = record ∧ record ≠ .null := by
  unfold record? at h
  split at h
  · cases h
  · next pkg hobject =>
      split at h
      · cases h
      · exact Option.some.inj h ▸ object?_eq_some hobject

theorem new_index (rt : ReaderRuntime) (bytes : Bytes) :
    (new rt (some bytes)).index =
      (((Bytes.lines bytes).map Bytes.decode).foldl (indexLine rt) {}).index := by
  rw [← Bytes.split_decode]
  unfold new buildIndex
  simp

theorem get?_new (rt : ReaderRuntime) (bytes : Bytes) (id : Text) :
    InsertionMap.get? (new rt (some bytes)).index id =
      lastIndexed? rt id 0 ((Bytes.lines bytes).map Bytes.decode) := by
  rw [new_index, get?_foldl]
  exact Option.or_none

theorem mem_new_iff {id : Text} {entry : IndexEntry} :
    (id, entry) ∈ (new rt (some bytes)).index ↔
      lastIndexed? rt id 0 ((Bytes.lines bytes).map Bytes.decode) = some entry := by
  rw [← get?_new]
  have hnodup : ((new rt (some bytes)).index.map (·.1)).Nodup := by
    rw [new_index]
    exact nodup_foldl _ _ List.nodup_nil
  exact ⟨InsertionMap.get?_eq_some_of_mem hnodup, InsertionMap.mem_of_get?_eq_some⟩

/-- An entry of the index comes from the last record with its id. -/
theorem exists_line {id : Text} {entry : IndexEntry}
    (h : (id, entry) ∈ (new rt (some bytes)).index) :
    ∃ pre line post record, Bytes.lines bytes = pre ++ line :: post ∧
      LastRecord rt ((Bytes.lines bytes).map Bytes.decode) (pre.map Bytes.decode)
        (Bytes.decode line) (post.map Bytes.decode) record ∧
      contentId rt (Bytes.decode line) = id ∧
      entry = entryAt rt (offsetOf (pre.map Bytes.decode)) (Bytes.decode line) record := by
  obtain ⟨preTexts, text, postTexts, record, hlast, hid, hentry⟩ :=
    exists_lastRecord (mem_new_iff.mp h)
  obtain ⟨pre, rest, hlines, rfl, hrest⟩ := List.map_eq_append_iff.mp hlast.split
  obtain ⟨line, post, rfl, rfl, rfl⟩ := List.map_eq_cons_iff.mp hrest
  rw [Nat.zero_add] at hentry
  exact ⟨pre, line, post, record, hlines, hlast, hid, hentry⟩

/-- What is read for the id of a line. -/
theorem LastRecord.getById {postTexts : List Text}
    (h : LastRecord rt ((Bytes.lines bytes).map Bytes.decode) (pre.map Bytes.decode)
      (Bytes.decode line) postTexts record) :
    getById rt (new rt (some bytes)) bytes (contentId rt (Bytes.decode line)) =
      some (parseLine rt (Text.trim (Bytes.decode (readWindow bytes
        (offsetOf (pre.map Bytes.decode)) (lineBytes (Bytes.decode line)))))) := by
  unfold NdjsonReader.getById
  rw [get?_new, h.lastIndexed?, Nat.zero_add]
  rfl

theorem parseLine_of_nul {text : Text} (h : Json.nul ∈ text) : parseLine rt text = .null := by
  unfold parseLine
  split
  · rfl
  · next parsed hparsed => exact absurd h (Json.nul_notMem_of_parse hparsed)

/-- A line that stands where the index takes it to stand is read back. -/
theorem getById_of_newline (hlines : Bytes.lines bytes = pre ++ line :: post)
    (h : LastRecord rt ((Bytes.lines bytes).map Bytes.decode) (pre.map Bytes.decode)
      (Bytes.decode line) (post.map Bytes.decode) record)
    (hpre : ∀ other ∈ pre, Faithful other) (hline : Faithful line) (hpost : post ≠ []) :
    NdjsonReader.getById rt (new rt (some bytes)) bytes (contentId rt (Bytes.decode line)) =
      some record := by
  rw [h.getById, offsetOf_decode hpre, hline.lineBytes, readWindow_of_newline hlines hpost,
    Bytes.decode_append_newline]
  have htrim : Text.trim (Bytes.decode line ++ '\n' :: Bytes.decode []) =
      Text.trim (Bytes.decode line) := trim_append_newline _
  rw [htrim, (record?_eq_some h.record).1]

/-- An open line is read with a NUL at its end. -/
theorem getById_of_open (hlines : Bytes.lines bytes = pre ++ [line])
    (h : LastRecord rt ((Bytes.lines bytes).map Bytes.decode) (pre.map Bytes.decode)
      (Bytes.decode line) [] record)
    (hpre : ∀ other ∈ pre, Faithful other) (hline : Faithful line) :
    NdjsonReader.getById rt (new rt (some bytes)) bytes (contentId rt (Bytes.decode line)) =
      some .null := by
  rw [h.getById, offsetOf_decode hpre, hline.lineBytes, readWindow_of_open hlines,
    Bytes.decode_append_ascii line [] (by decide)]
  have hnul : Json.nul ∈ Text.trim (Bytes.decode line ++ Char.ofNat 0 :: Bytes.decode []) :=
    nul_mem_trim _
  rw [parseLine_of_nul hnul]

theorem readsBack_of_aligned (h : Aligned rt bytes) :
    ReadsBack rt bytes (new rt (some bytes)) := by
  intro id entry hmem
  obtain ⟨pre, line, post, record, hlines, hlast, rfl, rfl⟩ := exists_line hmem
  obtain ⟨hpre, hline, hpost⟩ := h pre line post record hlines hlast
  exact ⟨rfl, (record?_eq_some hlast.record).2,
    getById_of_newline hlines hlast hpre hline hpost⟩

/-- Where decoding replaces nothing, only an open last line can be missed. -/
theorem aligned_of_readsBack (hfaithful : ∀ line ∈ Bytes.lines bytes, Faithful line)
    (h : ReadsBack rt bytes (new rt (some bytes))) : Aligned rt bytes := by
  intro pre line post record hlines hlast
  rw [hlines] at hfaithful
  have hpre : ∀ other ∈ pre, Faithful other :=
    fun other hmem => hfaithful other (List.mem_append_left _ hmem)
  have hline : Faithful line := hfaithful line (List.mem_append_right _ List.mem_cons_self)
  refine ⟨hpre, hline, ?_⟩
  rintro rfl
  obtain ⟨-, hne, hread⟩ := h _ _ (mem_new_iff.mpr hlast.lastIndexed?)
  rw [getById_of_open hlines hlast hpre hline] at hread
  exact hne (Option.some.inj hread).symm

end Reading

/-- Every encoded text is decoded as it was. -/
theorem faithful_of_ofText {bytes : Bytes} (htext : ∃ text, bytes = Bytes.ofText text) :
    ∀ line ∈ Bytes.lines bytes, Faithful line := by
  obtain ⟨text, rfl⟩ := htext
  intro line hmem
  obtain ⟨part, rfl⟩ := Bytes.exists_ofText_of_mem_lines hmem
  exact faithful_ofText part

/-- Every listed id is read back if the last record with each id is aligned. The converse holds of
every file without replaced bytes, and so of every file that is well-formed UTF-8. -/
theorem ndjsonReader_reads_back_iff (rt : ReaderRuntime) (bytes : Bytes) :
    (Aligned rt bytes → ReadsBack rt bytes (new rt (some bytes))) ∧
      ((∀ line ∈ Bytes.lines bytes, Faithful line) →
        (ReadsBack rt bytes (new rt (some bytes)) ↔ Aligned rt bytes)) ∧
      ((∃ text, bytes = Bytes.ofText text) →
        (ReadsBack rt bytes (new rt (some bytes)) ↔ Aligned rt bytes)) := by
  have converse : (∀ line ∈ Bytes.lines bytes, Faithful line) →
      (ReadsBack rt bytes (new rt (some bytes)) ↔ Aligned rt bytes) :=
    fun hfaithful => ⟨aligned_of_readsBack hfaithful, readsBack_of_aligned⟩
  exact ⟨readsBack_of_aligned, converse, fun htext => converse (faithful_of_ofText htext)⟩

/-! ## A last line without a newline -/

/-- A runtime that knows the hash of one line. -/
def openLineRuntime : ReaderRuntime where
  formatNumber := id
  sha256Hex := fun _ => "2a43dd09714b7d9275af5504df229974706426c67fe79d06906b4130182647fc"

/-- One record and no newline. -/
def openLine : Text := "\x7b\"eventId\":\"evt-1\"\x7d"

theorem record?_openLine_isSome : (record? openLineRuntime openLine).isSome = true := by
  decide +kernel

theorem lines_openLine : Bytes.lines (Bytes.ofText openLine) = [Bytes.ofText openLine] := by
  decide +kernel

/-- The record is listed, but reading it back finds a byte after the end of the file. -/
theorem openLine_not_readsBack :
    ¬ReadsBack openLineRuntime (Bytes.ofText openLine)
      (new openLineRuntime (some (Bytes.ofText openLine))) := by
  intro h
  obtain ⟨record, hrecord⟩ := Option.isSome_iff_exists.mp record?_openLine_isSome
  have hlast : LastRecord openLineRuntime ((Bytes.lines (Bytes.ofText openLine)).map Bytes.decode)
      [] (Bytes.decode (Bytes.ofText openLine)) [] record := by
    refine ⟨by rw [lines_openLine]; rfl, ?_, fun other hmem => by cases hmem⟩
    rw [Bytes.decode_ofText, hrecord]
  have haligned := aligned_of_readsBack (faithful_of_ofText ⟨openLine, rfl⟩) h
  exact (haligned [] (Bytes.ofText openLine) [] record lines_openLine hlast).2.2 rfl

end NdjsonReader

end ErrorCore
