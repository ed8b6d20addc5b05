import ErrorCore.Foundation.Lines
import ErrorCore.Pii.Scrubber.Redaction
import ErrorCore.Pii.Scrubber.Url

/-!
# What scrubbing does to a query

The query of a URL is read off its text in the way of `URLSearchParams`, before
and after. A URL with a scheme keeps its parameters exactly if no key occurs
twice, since setting a key removes its other values. In any other URL the
segments stay in place, and what matters is that `decodeURIComponent` and the
form decoding lead to the same values.
-/

namespace ErrorCore

/-! ## The parts of a URL -/

def pathOf (url : Text) : Text := (url.takeWhile (· ≠ '#')).takeWhile (· ≠ '?')

def queryOf (url : Text) : Text := ((url.takeWhile (· ≠ '#')).dropWhile (· ≠ '?')).tail

/-- The path, the keys and their order stay, and every value is the scrubbed one. -/
def PreservesQuery (scrub : Text → Text → Text) (before after : Text) : Prop :=
  pathOf after = pathOf before ∧
    parseForm (queryOf after) = (parseForm (queryOf before)).map (MultiMap.update scrub)

theorem takeWhile_append_of_notMem {separator : Char} {text rest : Text} (h : separator ∉ text)
    (hrest : rest = [] ∨ ∃ more, rest = separator :: more) :
    (text ++ rest).takeWhile (· ≠ separator) = text ∧
      (text ++ rest).dropWhile (· ≠ separator) = rest := by
  have hall : ∀ c ∈ text, decide (c ≠ separator) = true := fun c hc =>
    decide_eq_true fun heq => h (heq ▸ hc)
  rw [List.takeWhile_append_of_pos hall, List.dropWhile_append_of_pos hall]
  rcases hrest with rfl | ⟨more, rfl⟩
  · exact ⟨List.append_nil text, rfl⟩
  · simp

section Parts

variable {start query hash : Text}

theorem parts_of_query (hstart : '?' ∉ start ∧ '#' ∉ start) (hquery : '#' ∉ query)
    (hhash : hash = [] ∨ ∃ fragment, hash = '#' :: fragment) :
    pathOf (start ++ '?' :: query ++ hash) = start ∧
      queryOf (start ++ '?' :: query ++ hash) = query := by
  have hbefore : '#' ∉ start ++ '?' :: query := by
    simp [hstart.2, hquery]
  have hcut := (takeWhile_append_of_notMem hbefore hhash).1
  obtain ⟨hpath, hrest⟩ : (start ++ '?' :: query).takeWhile (· ≠ '?') = start ∧
      (start ++ '?' :: query).dropWhile (· ≠ '?') = '?' :: query :=
    takeWhile_append_of_notMem hstart.1 (.inr ⟨query, rfl⟩)
  rw [pathOf, queryOf, hcut, hpath, hrest]
  exact ⟨rfl, rfl⟩

theorem parts_of_no_query (hstart : '?' ∉ start ∧ '#' ∉ start)
    (hhash : hash = [] ∨ ∃ fragment, hash = '#' :: fragment) :
    pathOf (start ++ hash) = start ∧ queryOf (start ++ hash) = [] := by
  have hcut := (takeWhile_append_of_notMem hstart.2 hhash).1
  obtain ⟨hpath, hrest⟩ : (start ++ []).takeWhile (· ≠ '?') = start ∧
      (start ++ []).dropWhile (· ≠ '?') = [] := takeWhile_append_of_notMem hstart.1 (.inl rfl)
  rw [List.append_nil] at hpath hrest
  rw [pathOf, queryOf, hcut, hpath, hrest]
  exact ⟨rfl, rfl⟩

theorem Url.parts (url : Url) :
    pathOf url.toString = url.start ∧ queryOf url.toString = url.query.getD [] := by
  unfold Url.toString
  cases hquery : url.query with
  | none =>
      rw [List.append_nil]
      exact parts_of_no_query url.start_plain url.hash_start
  | some query => exact parts_of_query url.start_plain (url.query_plain query hquery) url.hash_start

end Parts

/-! ## Forms -/

theorem decodeFormComponent_encode {keep : Char → Bool} (hpercent : keep '%' = false)
    (hplus : keep '+' = false) (text : Text) :
    decodeFormComponent (Percent.encode keep text) = text := by
  have hnone : '+' ∉ Percent.encode keep text := Percent.notMem_encode (by decide) hplus text
  have hmap : (Percent.encode keep text).map (fun c => if c = '+' then ' ' else c) =
      Percent.encode keep text := by
    refine (List.map_congr_left fun c hc => ?_).trans (List.map_id _)
    have hne : c ≠ '+' := fun heq => hnone (heq ▸ hc)
    rw [if_neg hne, id]
  rw [decodeFormComponent, hmap, Percent.decode_encode hpercent, Bytes.decode_ofText]

theorem decodeFormComponent_encodeURIComponent (text : Text) :
    decodeFormComponent (encodeURIComponent text) = text :=
  decodeFormComponent_encode (by decide) (by decide) text

theorem decodeFormComponent_encodeFormComponent (text : Text) :
    decodeFormComponent (encodeFormComponent text) = text := by
  have hplus : '+' ∉ Percent.encode (fun c => isFormCharacter c || c == ' ') text :=
    Percent.notMem_encode (by decide) (by decide) text
  have hmap : (encodeFormComponent text).map (fun c => if c = '+' then ' ' else c) =
      Percent.encode (fun c => isFormCharacter c || c == ' ') text := by
    rw [encodeFormComponent, List.map_map]
    refine (List.map_congr_left fun c hc => ?_).trans (List.map_id _)
    by_cases hspace : c = ' '
    · subst hspace
      rfl
    · have hne : c ≠ '+' := fun heq => hplus (heq ▸ hc)
      rw [Function.comp_apply, if_neg hspace, if_neg hne, id]
  rw [decodeFormComponent, hmap, Percent.decode_encode (by decide), Bytes.decode_ofText]

theorem notMem_encodeFormComponent {separator : Char}
    (h : separator ∉ "%0123456789ABCDEF".toList)
    (hkeep : (isFormCharacter separator || separator == ' ') = false) (hplus : separator ≠ '+')
    (text : Text) : separator ∉ encodeFormComponent text := by
  intro hmem
  obtain ⟨c, hc, heq⟩ := List.mem_map.mp hmem
  split at heq
  · exact hplus heq.symm
  · subst heq
    exact Percent.notMem_encode h hkeep text hc

theorem cutSegment_of_notMem {key : Text} (h : '=' ∉ key) (value : Text) :
    cutSegment (key ++ '=' :: value) = (key, value) := by
  obtain ⟨htake, hdrop⟩ : (key ++ '=' :: value).takeWhile (· ≠ '=') = key ∧
      (key ++ '=' :: value).dropWhile (· ≠ '=') = '=' :: value :=
    takeWhile_append_of_notMem h (.inr ⟨value, rfl⟩)
  rw [cutSegment, htake, hdrop]
  rfl

/-- A segment as a parameter. -/
def decodeSegment (segment : Text) : Text × Text :=
  (decodeFormComponent (cutSegment segment).1, decodeFormComponent (cutSegment segment).2)

theorem decodeSegment_formSegment (param : Text × Text) :
    decodeSegment (formSegment param) = param := by
  have hkey : '=' ∉ encodeFormComponent param.1 :=
    notMem_encodeFormComponent (by decide) (by decide) (by decide) _
  rw [decodeSegment, formSegment, cutSegment_of_notMem hkey,
    decodeFormComponent_encodeFormComponent, decodeFormComponent_encodeFormComponent]

theorem parseForm_join {segments : List Text} (hne : segments ≠ [])
    (h : ∀ segment ∈ segments, '&' ∉ segment) :
    parseForm (Text.join "&" segments) = (segments.filter (· ≠ [])).map decodeSegment := by
  have hsplit : Text.split '&' (Text.join "&" segments) = segments :=
    List.splitOn_intercalate '&' h hne
  rw [parseForm, hsplit]
  rfl

theorem notMem_formSegment {separator : Char} (h : separator ∉ "%0123456789ABCDEF".toList)
    (hkeep : (isFormCharacter separator || separator == ' ') = false) (hplus : separator ≠ '+')
    (hequals : separator ≠ '=') (param : Text × Text) : separator ∉ formSegment param := by
  rw [formSegment, List.mem_append, List.mem_cons, not_or, not_or]
  exact ⟨notMem_encodeFormComponent h hkeep hplus _, hequals,
    notMem_encodeFormComponent h hkeep hplus _⟩

theorem parseForm_serializeForm {params : List (Text × Text)} (hne : params ≠ []) :
    parseForm (serializeForm params) = params := by
  have hsegments : ∀ segment ∈ params.map formSegment, '&' ∉ segment := by
    intro segment hmem
    obtain ⟨param, -, rfl⟩ := List.mem_map.mp hmem
    exact notMem_formSegment (by decide) (by decide) (by decide) (by decide) param
  have hfilter : (params.map formSegment).filter (· ≠ []) = params.map formSegment := by
    refine List.filter_eq_self.mpr fun segment hmem => ?_
    obtain ⟨param, -, rfl⟩ := List.mem_map.mp hmem
    simp [formSegment]
  rw [serializeForm, parseForm_join (by simpa using hne) hsegments, hfilter, List.map_map]
  refine (List.map_congr_left fun param _ => ?_).trans (List.map_id _)
  exact decodeSegment_formSegment param

theorem mem_join {segments : List Text} {separator : Text} {c : Char}
    (h : c ∈ Text.join separator segments) : c ∈ separator ∨ ∃ segment ∈ segments, c ∈ segment := by
  induction segments with
  | nil => cases h
  | cons segment rest ih =>
      cases rest with
      | nil =>
          rw [Text.join, List.intercalate_singleton] at h
          exact .inr ⟨segment, List.mem_cons_self, h⟩
      | cons next rest =>
          rw [Text.join, List.intercalate_cons_cons, List.mem_append, List.mem_append] at h
          rcases h with (h | h) | h
          · exact .inr ⟨segment, List.mem_cons_self, h⟩
          · exact .inl h
          · rcases ih h with h | ⟨other, hmem, hc⟩
            · exact .inl h
            · exact .inr ⟨other, List.mem_cons_of_mem _ hmem, hc⟩

theorem mem_join_of_mem {segments : List Text} {separator segment : Text} {c : Char}
    (hsegment : segment ∈ segments) (hc : c ∈ segment) : c ∈ Text.join separator segments := by
  induction segments with
  | nil => cases hsegment
  | cons first rest ih =>
      cases rest with
      | nil =>
          rw [Text.join, List.intercalate_singleton]
          rwa [List.mem_singleton.mp hsegment] at hc
      | cons next rest =>
          rw [Text.join, List.intercalate_cons_cons]
          rcases List.mem_cons.mp hsegment with rfl | hsegment
          · exact List.mem_append_left _ (List.mem_append_left _ hc)
          · exact List.mem_append_right _ (ih hsegment)

theorem mem_of_mem_split {separator : Char} {text segment : Text} {c : Char}
    (hsegment : segment ∈ Text.split separator text) (hc : c ∈ segment) : c ∈ text := by
  have hjoin : c ∈ Text.join [separator] _ := mem_join_of_mem hsegment hc
  rwa [Text.join, Text.split, List.intercalate_splitOn] at hjoin

theorem hash_notMem_serializeForm (params : List (Text × Text)) : '#' ∉ serializeForm params := by
  intro hmem
  rcases mem_join hmem with h | ⟨segment, hsegment, h⟩
  · exact absurd h (by decide)
  · obtain ⟨param, -, rfl⟩ := List.mem_map.mp hsegment
    exact notMem_formSegment (by decide) (by decide) (by decide) (by decide) param h

namespace Scrubber

variable {s : Scrubber}

/-! ## URLs with a scheme -/

theorem scrubSearchParams_preservesQuery_iff (s : Scrubber) (url : Url) :
    PreservesQuery s.scrubParam url.toString (s.scrubSearchParams url) ↔
      (url.searchParams.map Prod.fst).Nodup := by
  obtain ⟨hpath, hquery⟩ := url.parts
  have hparams : parseForm (queryOf url.toString) = url.searchParams := by
    rw [hquery, Url.searchParams]
  unfold scrubSearchParams
  split
  · next hnil =>
      rw [PreservesQuery, hparams, hnil]
      exact ⟨fun _ => List.nodup_nil, fun _ => ⟨rfl, rfl⟩⟩
  · next hsome =>
      have hne : MultiMap.setEach s.scrubParam 0 url.searchParams ≠ [] :=
        MultiMap.setEach_ne_nil hsome
      obtain ⟨hpath', hquery'⟩ := parts_of_query url.start_plain
        (hash_notMem_serializeForm (MultiMap.setEach s.scrubParam 0 url.searchParams))
        url.hash_start
      rw [PreservesQuery, hparams, hpath, hpath', hquery', parseForm_serializeForm hne,
        MultiMap.setEach_eq_map_iff]
      exact ⟨fun h => h.2, fun h => ⟨rfl, h⟩⟩

/-! ## Other URLs -/

/-- Both ways of decoding a segment lead to the same parameter. -/
def Agrees (s : Scrubber) (segment : Text) : Prop :=
  let key := decodeQueryComponent (cutSegment segment).1
  let value := decodeQueryComponent (cutSegment segment).2
  let formKey := decodeFormComponent (cutSegment segment).1
  let formValue := decodeFormComponent (cutSegment segment).2
  if s.scrubParam key value = value then s.scrubParam formKey formValue = formValue
  else key = formKey ∧ s.scrubParam key value = s.scrubParam formKey formValue

theorem encodeURIComponent_notMem {separator : Char} (h : separator ∉ "%0123456789ABCDEF".toList)
    (hkeep : isUnreserved separator = false) (text : Text) : separator ∉ encodeURIComponent text :=
  Percent.notMem_encode h hkeep text

/-- The segment that stands in the result. -/
def resultSegment (s : Scrubber) (segment : Text) : Text := (s.scrubSegment segment).getD segment

theorem resultSegment_notMem {separator : Char} {segment : Text} (hsegment : separator ∉ segment)
    (h : separator ∉ "%0123456789ABCDEF".toList) (hkeep : isUnreserved separator = false)
    (hequals : separator ≠ '=') : separator ∉ s.resultSegment segment := by
  unfold resultSegment scrubSegment
  split
  · exact hsegment
  · dsimp only
    split
    · exact hsegment
    · rw [Option.getD_some, List.mem_append, List.mem_cons, not_or, not_or]
      exact ⟨encodeURIComponent_notMem h hkeep _, hequals, encodeURIComponent_notMem h hkeep _⟩

theorem resultSegment_eq_nil {segment : Text} : s.resultSegment segment = [] ↔ segment = [] := by
  unfold resultSegment scrubSegment
  split
  · exact Iff.rfl
  · dsimp only
    split
    · exact Iff.rfl
    · next hne _ =>
        rw [Option.getD_some]
        exact ⟨fun h => absurd h (by simp), fun h => absurd h hne⟩

theorem decodeSegment_resultSegment_iff {segment : Text} (hne : segment ≠ []) :
    decodeSegment (s.resultSegment segment) =
        MultiMap.update s.scrubParam (decodeSegment segment) ↔ s.Agrees segment := by
  unfold resultSegment scrubSegment Agrees
  rw [if_neg hne]
  dsimp only
  split
  · next hsame =>
      rw [Option.getD_none]
      simp [decodeSegment, MultiMap.update, eq_comm]
  · next hchanged =>
      have hkey : '=' ∉ encodeURIComponent (decodeQueryComponent (cutSegment segment).1) :=
        encodeURIComponent_notMem (by decide) (by decide) _
      rw [Option.getD_some, decodeSegment, cutSegment_of_notMem hkey,
        decodeFormComponent_encodeURIComponent, decodeFormComponent_encodeURIComponent]
      simp [decodeSegment, MultiMap.update]

section Relative

variable (s) (rawUrl : Text)

/-- A text is cut before a separator, or nowhere. -/
theorem dropWhile_cases (separator : Char) (text : Text) :
    (separator ∉ text ∧ text.dropWhile (· ≠ separator) = []) ∨
      ∃ rest, text.dropWhile (· ≠ separator) = separator :: rest := by
  induction text with
  | nil => exact .inl ⟨List.not_mem_nil, rfl⟩
  | cons c text ih =>
      by_cases hc : c = separator
      · subst hc
        exact .inr ⟨text, List.dropWhile_cons_of_neg (by simp)⟩
      · rw [List.dropWhile_cons_of_pos (by simpa using hc), List.mem_cons, not_or]
        exact ih.imp_left fun h => ⟨⟨Ne.symm hc, h.1⟩, h.2⟩

theorem notMem_takeWhile (separator : Char) (text : Text) :
    separator ∉ text.takeWhile (· ≠ separator) := by
  intro hmem
  have hne := List.all_eq_true.mp List.all_takeWhile separator hmem
  exact of_decide_eq_true hne rfl

theorem map_resultSegment_of_none {segments : List Text}
    (h : segments.all (fun segment => (s.scrubSegment segment).isNone) = true) :
    segments.map s.resultSegment = segments := by
  refine (List.map_congr_left fun segment hmem => ?_).trans (List.map_id _)
  have hnone := Option.isNone_iff_eq_none.mp (List.all_eq_true.mp h segment hmem)
  rw [resultSegment, hnone, Option.getD_none, id]

theorem filter_map_resultSegment (segments : List Text) :
    (segments.map s.resultSegment).filter (· ≠ []) =
      (segments.filter (· ≠ [])).map s.resultSegment := by
  rw [List.filter_map]
  congr 1
  refine List.filter_congr fun segment _ => ?_
  simp [resultSegment_eq_nil]

/-- The path and the segments of the result, whether or not anything changed. -/
theorem scrubRelativeUrl_parts :
    pathOf (s.scrubRelativeUrl rawUrl) = pathOf rawUrl ∧
      parseForm (queryOf (s.scrubRelativeUrl rawUrl)) =
        (((Text.split '&' (queryOf rawUrl)).filter (· ≠ [])).map s.resultSegment).map
          decodeSegment := by
  have hunchanged : ((Text.split '&' (queryOf rawUrl)).filter (· ≠ [])).map s.resultSegment =
      (Text.split '&' (queryOf rawUrl)).filter (· ≠ []) →
      pathOf rawUrl = pathOf rawUrl ∧ parseForm (queryOf rawUrl) =
        (((Text.split '&' (queryOf rawUrl)).filter (· ≠ [])).map s.resultSegment).map
          decodeSegment := by
    intro h
    rw [h]
    exact ⟨rfl, rfl⟩
  rcases dropWhile_cases '?' (rawUrl.takeWhile (· ≠ '#')) with ⟨hnone, hempty⟩ | ⟨query, hquery⟩
  · have hresult : s.scrubRelativeUrl rawUrl = rawUrl := if_pos hnone
    have hnil : queryOf rawUrl = [] := by
      rw [queryOf, hempty, List.tail_nil]
    rw [hresult]
    refine hunchanged ?_
    rw [hnil]
    rfl
  · have hbefore : rawUrl.takeWhile (· ≠ '#') = pathOf rawUrl ++ '?' :: queryOf rawUrl := by
      rw [pathOf, queryOf, hquery, List.tail_cons, ← hquery, List.takeWhile_append_dropWhile]
    have hhash : '#' ∉ pathOf rawUrl ++ '?' :: queryOf rawUrl := by
      rw [← hbefore]
      exact notMem_takeWhile '#' rawUrl
    have hmem : '?' ∈ rawUrl.takeWhile (· ≠ '#') := by
      rw [hbefore]
      exact List.mem_append_right _ List.mem_cons_self
    unfold scrubRelativeUrl
    rw [if_neg (not_not.mpr hmem)]
    dsimp only
    rw [← queryOf, ← pathOf]
    split
    · next hall =>
        have hsame := map_resultSegment_of_none s hall
        exact hunchanged (by rw [← filter_map_resultSegment, hsame])
    · rw [List.mem_append, List.mem_cons, not_or, not_or] at hhash
      have hsegments : ∀ segment ∈ (Text.split '&' (queryOf rawUrl)).map s.resultSegment,
          '&' ∉ segment ∧ '#' ∉ segment := by
        intro segment h
        obtain ⟨original, horiginal, rfl⟩ := List.mem_map.mp h
        have hsub : '#' ∉ original := fun hc =>
          hhash.2.2 (mem_of_mem_split horiginal hc)
        exact ⟨resultSegment_notMem (Text.notMem_of_mem_split horiginal) (by decide) (by decide)
            (by decide),
          resultSegment_notMem hsub (by decide) (by decide) (by decide)⟩
      have hjoin : '#' ∉ Text.join "&" ((Text.split '&' (queryOf rawUrl)).map s.resultSegment) := by
        intro h
        rcases mem_join h with h | ⟨segment, hsegment, h⟩
        · exact absurd h (by decide)
        · exact (hsegments segment hsegment).2 h
      have hcut : rawUrl.dropWhile (· ≠ '#') = [] ∨
          ∃ fragment, rawUrl.dropWhile (· ≠ '#') = '#' :: fragment :=
        (dropWhile_cases '#' rawUrl).imp_left And.right
      obtain ⟨hpath, hresult⟩ := parts_of_query ⟨notMem_takeWhile '?' _, hhash.1⟩ hjoin hcut
      have hne : (Text.split '&' (queryOf rawUrl)).map s.resultSegment ≠ [] := by
        simpa using Text.split_ne_nil '&' (queryOf rawUrl)
      refine ⟨hpath, ?_⟩
      rw [← filter_map_resultSegment, ← parseForm_join hne fun segment h => (hsegments segment h).1]
      exact congrArg parseForm hresult

theorem scrubRelativeUrl_preservesQuery_iff :
    PreservesQuery s.scrubParam rawUrl (s.scrubRelativeUrl rawUrl) ↔
      ∀ segment ∈ Text.split '&' (queryOf rawUrl), segment ≠ [] → s.Agrees segment := by
  obtain ⟨hpath, hparams⟩ := scrubRelativeUrl_parts s rawUrl
  rw [PreservesQuery, hparams, parseForm, List.map_map, List.map_map]
  constructor
  · rintro ⟨-, hmap⟩ segment hmem hne
    have heq := List.map_inj_left.mp hmap segment (List.mem_filter.mpr ⟨hmem, by simpa using hne⟩)
    exact (decodeSegment_resultSegment_iff hne).mp heq
  · intro h
    refine ⟨hpath, List.map_inj_left.mpr fun segment hmem => ?_⟩
    obtain ⟨hmem, hne⟩ := List.mem_filter.mp hmem
    have hne : segment ≠ [] := by simpa using hne
    exact (decodeSegment_resultSegment_iff hne).mpr (h segment hmem hne)

end Relative

/-! ## The result -/

/-- A URL with a scheme keeps its query exactly if no key occurs twice. Any other URL keeps it
exactly if both ways of decoding agree on every segment. -/
theorem scrubUrl_preservesQuery_iff (s : Scrubber) (newUrl : Text → Option Url) (rawUrl : Text) :
    (hasScheme rawUrl = true → '?' ∈ rawUrl → ∀ url, newUrl rawUrl = some url →
      (PreservesQuery s.scrubParam url.toString (s.scrubUrl newUrl rawUrl) ↔
        (url.searchParams.map Prod.fst).Nodup)) ∧
    (hasScheme rawUrl = false →
      (PreservesQuery s.scrubParam rawUrl (s.scrubUrl newUrl rawUrl) ↔
        ∀ segment ∈ Text.split '&' (queryOf rawUrl), segment ≠ [] → s.Agrees segment)) := by
  constructor
  · intro hscheme hquery url hurl
    have hresult : s.scrubUrl newUrl rawUrl = s.scrubSearchParams url := by
      rw [scrubUrl, if_neg (not_not.mpr hquery), if_pos hscheme, hurl]
    rw [hresult]
    exact scrubSearchParams_preservesQuery_iff s url
  · intro hscheme
    have hresult : s.scrubUrl newUrl rawUrl = s.scrubRelativeUrl rawUrl := by
      by_cases hquery : '?' ∈ rawUrl
      · rw [scrubUrl, if_neg (not_not.mpr hquery),
          if_neg (by rw [hscheme]; exact Bool.false_ne_true)]
      · have hbefore : '?' ∉ rawUrl.takeWhile (· ≠ '#') := fun h =>
          hquery ((List.takeWhile_prefix _).subset h)
        rw [scrubUrl, if_pos hquery, scrubRelativeUrl, if_pos hbefore]
    rw [hresult]
    exact scrubRelativeUrl_preservesQuery_iff s rawUrl

/-- What the parser gives for `https://h/?a=1&a=2`. -/
def repeatedKey : Url where
  start := "https://h/"
  query := some "a=1&a=2"
  hash := []
  start_plain := by decide
  query_plain := by
    rintro text ⟨⟩
    decide
  hash_start := .inl rfl

/-- The second value of a repeated key is lost, and a key with a plus sign in a URL without a scheme
is another key afterwards. -/
theorem scrubUrl_changes_query :
    ¬PreservesQuery plainScrubber.scrubParam repeatedKey.toString
        (plainScrubber.scrubUrl (fun _ => some repeatedKey) "https://h/?a=1&a=2") ∧
      plainScrubber.scrubUrl (fun _ => none) "/p?my+api_token=1" =
        "/p?my%2Bapi_token=%5BREDACTED%5D".toList := by
  constructor
  · intro h
    have hnodup := (scrubSearchParams_preservesQuery_iff plainScrubber repeatedKey).mp h
    exact absurd hnodup (by decide +kernel)
  · decide +kernel

end Scrubber

end ErrorCore
