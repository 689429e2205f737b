import MeetilyLocal.Database.ActionItemCalls
import MeetilyLocal.Library.FirstOfKey
import MeetilyLocal.Library.JsonValue
import MeetilyLocal.Summary.ActionExtraction

/-!
# Action items in the answer of a model

`parse_action_items` of `summary/action_extraction.rs`, with what it is made of. An answer is a text that
probably has a JSON array somewhere: bare, in a fence, in an object or between sentences. Its elements are
texts or objects, the fields of which go by several names.

Whatever the answer is, the items that come of it are few and distinct, and each is as it would come of
itself (`parseActionItems_wellFormed`).
-/

namespace MeetilyLocal

namespace ActionExtraction

open ActionItemsRepository Json Utf8

/-! ## Elements -/

/-- `RawActionItem` -/
structure RawActionItem : Type where
  /-- what is to be done -/
  text : Option String
  /-- who is to do it -/
  assignee : Option String
  /-- until when -/
  dueHint : Option String
  /-- the sentence it was found in -/
  quote : Option String

/-- `RawElement` -/
inductive RawElement : Type where
  /-- a bare text -/
  | text : String → RawElement
  /-- an object -/
  | object : RawActionItem → RawElement

/-- A field of an object, by its names: none outside if it cannot be read, or is there twice. -/
def rawField (names : List String) (entries : List (String × Value)) : Option (Option String) :=
  match entries.filter fun entry => names.contains entry.1 with
  | [] => some none
  | [(_, value)] => value.deserializeOption Value.deserializeString
  | _ => none

/-- A `RawActionItem` that is read from an object. -/
def rawObject (entries : List (String × Value)) : Option RawActionItem := do
  let text ← rawField ["text", "task", "action", "item", "description"] entries
  let assignee ← rawField ["assignee", "owner", "responsible", "who"] entries
  let dueHint ← rawField ["due_hint", "dueHint", "due", "due_date", "dueDate", "deadline", "when"] entries
  let quote ← rawField ["quote", "evidence", "source", "sentence", "supporting_quote"] entries
  some ⟨text, assignee, dueHint, quote⟩

/-- A field of a `RawActionItem` that is read from an array. -/
def rawAt (values : List Value) (i : ℕ) : Option (Option String) :=
  match values[i]? with
  | none => some none
  | some value => value.deserializeOption Value.deserializeString

/-- A `RawActionItem` that is read from an array: its fields in order, the last ones left out. -/
def rawArray (values : List Value) : Option RawActionItem :=
  if 4 < values.length then none
  else do
    let text ← rawAt values 0
    let assignee ← rawAt values 1
    let dueHint ← rawAt values 2
    let quote ← rawAt values 3
    some ⟨text, assignee, dueHint, quote⟩

/-- An element. -/
def rawElement : Value → Option RawElement
  | .string text => some (.text text)
  | .object entries => (rawObject entries).map .object
  | .array values => (rawArray values).map .object
  | _ => none

mutual

/-- What `serde_json::Value` keeps of a document: each key of an object once, with its last value. -/
def collapse : Value → Value
  | .array values => .array (collapseArray values)
  | .object entries => .object (ofEntries (collapseObject entries))
  | value => value

/-- of the values of an array -/
def collapseArray : List Value → List Value
  | [] => []
  | value :: values => collapse value :: collapseArray values

/-- of the entries of an object -/
def collapseObject : List (String × Value) → List (String × Value)
  | [] => []
  | (key, value) :: entries => (key, collapse value) :: collapseObject entries

end

/-- An entry with an array. -/
def isArrayEntry : String × Value → Bool
  | (_, .array _) => true
  | _ => false

/-- `elements_from_value` -/
def elementsFromValue : Value → Option (List RawElement)
  | .array values => values.mapM rawElement
  | .object entries =>
    match entries.filter isArrayEntry with
    | [(_, .array values)] => values.mapM rawElement
    | _ => none
  | _ => none

/-! ## Cleaning -/

/-- `MAX_ITEMS` -/
def maxItems : ℕ := 50

/-- `MIN_TEXT_LEN` -/
def minTextLen : ℕ := 4

/-- `NULL_SENTINELS` -/
def nullSentinels : List (List Char) :=
  ["none".toList, "n/a".toList, "na".toList, "null".toList, "unassigned".toList, "unknown".toList,
    "tbd".toList, "tba".toList, "not specified".toList, "unspecified".toList, "not mentioned".toList,
    "everyone".toList, "-".toList]

/-- `clean_optional` -/
def cleanOptional (tables : CaseTables) (value : Option String) : Option String :=
  match value with
  | none => none
  | some v =>
    if trim v.toList = [] then none
    else if tables.lowercase (trim v.toList) ∈ nullSentinels then none
    else some (String.ofList (trim v.toList))

/-- `is_generic_speaker_label` -/
def isGenericSpeakerLabel (tables : CaseTables) (s : String) : Bool :=
  match (tables.lowercase (trim s.toList)).dropPrefix? "speaker".toList with
  | none => false
  | some rest =>
    let rest := trimBy (fun c => !c.isAlphanum) rest
    rest.isEmpty || rest.all Char.isDigit

/-- `clean_assignee` -/
def cleanAssignee (tables : CaseTables) (value : Option String) : Option String :=
  match cleanOptional tables value with
  | none => none
  | some cleaned => if isGenericSpeakerLabel tables cleaned then none else some cleaned

/-- The model echoes the example of the prompt. -/
def echoesPrompt (text : List Char) : Bool :=
  text.map Char.toLower = "send the q3 budget to finance".toList ||
    text.map Char.toLower = "book the venue for the offsite".toList

/-- The fields of an element. -/
def RawElement.fields : RawElement → RawActionItem
  | .text t => ⟨some t, none, none, none⟩
  | .object o => o

/-- The item of an element, none if its text is not one. -/
def usable (tables : CaseTables) (element : RawElement) : Option NewActionItem :=
  let text := joinWords (splitWhitespace (element.fields.text.getD "").toList)
  if text.length < minTextLen then none
  else if echoesPrompt text then none
  else some
    { text := String.ofList text
      assignee := cleanAssignee tables element.fields.assignee
      dueHint := cleanOptional tables element.fields.dueHint
      sourceStartSecs := none
      sourceEndSecs := none
      sourceQuote := cleanOptional tables element.fields.quote }

/-- The loop of `normalize_elements`: the keys that were seen, the items, and the elements that are
left. -/
def normalizeFrom (tables : CaseTables) :
    List (List Char) → List NewActionItem → List RawElement → List NewActionItem
  | _, out, [] => out
  | seen, out, element :: elements =>
    match usable tables element with
    | none => normalizeFrom tables seen out elements
    | some item =>
      if normalizeTextKey tables item.text ∈ seen then normalizeFrom tables seen out elements
      else if maxItems ≤ (out ++ [item]).length then out ++ [item]
      else normalizeFrom tables (seen ++ [normalizeTextKey tables item.text]) (out ++ [item]) elements

/-- `normalize_elements` -/
def normalizeElements (tables : CaseTables) (elements : List RawElement) : List NewActionItem :=
  normalizeFrom tables [] [] elements

/-! ## The answer -/

/-- What opens and closes a fence. -/
def fence : List Char := ['\x60', '\x60', '\x60']

/-- `strip_code_fences` -/
def stripCodeFences (text : List Char) : List Char :=
  let trimmed := trim text
  if fence <+: trimmed then
    match find ['\n'] trimmed with
    | none => trim (trimBy (· == '\x60') trimmed)
    | some k =>
      let afterOpen := dropUpTo trimmed (k + 1)
      match rfind fence afterOpen with
      | some i => trim (upTo afterOpen i)
      | none => trim afterOpen
  else trimmed

/-- `parse_action_items`: none outside where it panics, none inside where there are no items to be found.
What `serde_json` reads of a text is a parameter, with the entries of an object as they stand in it. -/
def parseActionItems (overflowChecks : Bool) (read : List Char → Option Value) (tables : CaseTables)
    (raw : List Char) : Option (Option (List NewActionItem)) :=
  let cleaned := stripCodeFences (trim raw)
  match (read cleaned).bind fun value => elementsFromValue (collapse value) with
  | some elements => some (some (normalizeElements tables elements))
  | none =>
    match findJsonArray overflowChecks cleaned with
    | none => none
    | some none => some none
    | some (some slice) =>
      match read slice with
      | some (.array values) => some ((values.mapM rawElement).map (normalizeElements tables))
      | _ => some none

/-! ## What the items are -/

section Items

variable {tables : CaseTables} {element : RawElement} {elements : List RawElement}
  {item : NewActionItem} {items : List NewActionItem} {value : Option String}

/-- An item as it comes of an answer. -/
structure WellFormed (tables : CaseTables) (item : NewActionItem) : Prop where
  /-- its text is words with single spaces in between -/
  words : joinWords (splitWhitespace item.text.toList) = item.text.toList
  /-- it is not too short -/
  long : minTextLen ≤ item.text.toList.length
  /-- it is not from the prompt -/
  own : echoesPrompt item.text.toList = false
  /-- there is nothing to clean -/
  assignee : cleanAssignee tables item.assignee = item.assignee
  /-- here neither -/
  dueHint : cleanOptional tables item.dueHint = item.dueHint
  /-- nor here -/
  quote : cleanOptional tables item.sourceQuote = item.sourceQuote
  /-- it is not known when it was said -/
  unanchored : item.sourceStartSecs = none ∧ item.sourceEndSecs = none

/-- The element that an item comes of. -/
def elementOf (item : NewActionItem) : RawElement :=
  .object ⟨some item.text, item.assignee, item.dueHint, item.sourceQuote⟩

/-- Cleaning twice is cleaning once. -/
theorem cleanOptional_cleanOptional (tables : CaseTables) (value : Option String) :
    cleanOptional tables (cleanOptional tables value) = cleanOptional tables value := by
  cases value with
  | none => rfl
  | some v =>
    rw [cleanOptional]
    split
    · rfl
    next hblank =>
      split
      · rfl
      next hsentinel =>
        rw [cleanOptional, String.toList_ofList, trim_trim, if_neg hblank, if_neg hsentinel]

theorem cleanAssignee_cleanAssignee (tables : CaseTables) (value : Option String) :
    cleanAssignee tables (cleanAssignee tables value) = cleanAssignee tables value := by
  have hclean := cleanOptional_cleanOptional tables value
  cases hvalue : cleanOptional tables value with
  | none =>
    have hnone : cleanAssignee tables value = none := by rw [cleanAssignee, hvalue]
    rw [hnone]
    rfl
  | some cleaned =>
    rw [hvalue] at hclean
    cases hlabel : isGenericSpeakerLabel tables cleaned with
    | true =>
      have hnone : cleanAssignee tables value = none := by
        rw [cleanAssignee, hvalue]
        exact if_pos hlabel
      rw [hnone]
      rfl
    | false =>
      have hsome : cleanAssignee tables value = some cleaned := by
        rw [cleanAssignee, hvalue]
        exact if_neg (by simp [hlabel])
      rw [hsome, cleanAssignee, hclean]
      exact if_neg (by simp [hlabel])

/-- The words of a text that was put together of words. -/
theorem joinWords_splitWhitespace_joinWords (text : List Char) :
    joinWords (splitWhitespace (joinWords (splitWhitespace text))) = joinWords (splitWhitespace text) := by
  rw [splitWhitespace_joinWords fun word => isWord_of_mem]

theorem wellFormed_of_usable (h : usable tables element = some item) : WellFormed tables item := by
  unfold usable at h
  simp only at h
  split_ifs at h with hshort hecho
  obtain rfl := Option.some.inj h
  refine ⟨?_, ?_, ?_, cleanAssignee_cleanAssignee tables _, cleanOptional_cleanOptional tables _,
    cleanOptional_cleanOptional tables _, rfl, rfl⟩
  · rw [String.toList_ofList, joinWords_splitWhitespace_joinWords]
  · rw [String.toList_ofList]
    exact Nat.le_of_not_lt hshort
  · rw [String.toList_ofList]
    simpa using hecho

/-- A text without a word is blank. -/
theorem splitWhitespace_of_trim {text : List Char} (h : trim text = []) : splitWhitespace text = [] := by
  have hblank : ∀ c ∈ text, isWhiteSpace c = true := by
    rw [trim_eq_trimBy, trimBy, List.rdropWhile_eq_nil_iff] at h
    refine List.dropWhile_eq_nil_iff.mp ?_
    rcases hdrop : text.dropWhile isWhiteSpace with _ | ⟨c, rest⟩
    · rfl
    · have hnot := List.head?_dropWhile_not isWhiteSpace text
      rw [hdrop] at h hnot
      have hc := h c List.mem_cons_self
      simp [hc] at hnot
  refine List.eq_nil_iff_forall_not_mem.mpr fun word hword => ?_
  obtain ⟨hne, hall⟩ := isWord_of_mem hword
  obtain ⟨c, rest, rfl⟩ := List.exists_cons_of_ne_nil hne
  have hc := hblank c ((infix_of_mem_splitWhitespace hword).subset List.mem_cons_self)
  rw [hall c List.mem_cons_self] at hc
  cases hc

theorem WellFormed.worded (h : WellFormed tables item) : Worded item.text := by
  intro hblank
  have hwords := h.words
  have hlong := h.long
  rw [splitWhitespace_of_trim hblank] at hwords
  rw [← hwords] at hlong
  exact absurd hlong (by decide)

/-- **An item comes of itself**, as it is. -/
theorem WellFormed.usable_elementOf (h : WellFormed tables item) :
    usable tables (elementOf item) = some item := by
  have htext : joinWords (splitWhitespace ((elementOf item).fields.text.getD "").toList) =
      item.text.toList := h.words
  unfold usable
  simp only [htext]
  rw [if_neg (Nat.not_lt.mpr h.long), if_neg (by simp [h.own])]
  simp only [elementOf, RawElement.fields, h.assignee, h.dueHint, h.quote, String.ofList_toList]
  obtain ⟨hstart, hstop⟩ := h.unanchored
  cases item
  simp_all

/-- The loop keeps the first item of each key, up to a number of them. -/
theorem normalizeFrom_eq (tables : CaseTables) (seen : List (List Char)) (out : List NewActionItem)
    (elements : List RawElement) :
    normalizeFrom tables seen out elements =
      collect (fun item => normalizeTextKey tables item.text) maxItems seen out
        (elements.filterMap (usable tables)) := by
  induction elements generalizing seen out with
  | nil => rfl
  | cons element elements ih =>
    rw [normalizeFrom]
    cases huse : usable tables element with
    | none => rw [List.filterMap_cons_none huse, ih]
    | some item =>
      simp only [List.filterMap_cons_some huse, collect, ih]
      split_ifs <;> rfl

theorem normalizeElements_eq (tables : CaseTables) (elements : List RawElement) :
    normalizeElements tables elements =
      (firstOfKey (fun item => normalizeTextKey tables item.text) []
        (elements.filterMap (usable tables))).take maxItems := by
  rw [normalizeElements, normalizeFrom_eq, collect_eq (by decide), List.nil_append]

theorem mem_normalizeElements (h : item ∈ normalizeElements tables elements) :
    ∃ element ∈ elements, usable tables element = some item := by
  rw [normalizeElements_eq] at h
  have hmem := (firstOfKey_sublist _ [] _).mem (List.mem_of_mem_take h)
  exact List.mem_filterMap.mp hmem

theorem normalizeElements_few (tables : CaseTables) (elements : List RawElement) :
    (normalizeElements tables elements).length ≤ maxItems := by
  rw [normalizeElements_eq]
  exact List.length_take_le _ _

theorem nodup_normalizeElements (tables : CaseTables) (elements : List RawElement) :
    ((normalizeElements tables elements).map fun item => normalizeTextKey tables item.text).Nodup := by
  rw [normalizeElements_eq, List.map_take]
  exact (nodup_firstOfKey _ [] _).sublist (List.take_sublist _ _)

theorem wellFormed_of_mem (h : item ∈ normalizeElements tables elements) : WellFormed tables item := by
  obtain ⟨element, -, huse⟩ := mem_normalizeElements h
  exact wellFormed_of_usable huse

/-- There is an item for each element, unless there are too many. -/
theorem exists_normalizeElements (helement : element ∈ elements)
    (huse : usable tables element = some item) :
    (∃ kept ∈ normalizeElements tables elements,
      normalizeTextKey tables kept.text = normalizeTextKey tables item.text) ∨
      (normalizeElements tables elements).length = maxItems := by
  rw [normalizeElements_eq]
  have hmem : item ∈ elements.filterMap (usable tables) :=
    List.mem_filterMap.mpr ⟨element, helement, huse⟩
  have hunseen : normalizeTextKey tables item.text ∉ ([] : List (List Char)) := List.not_mem_nil
  obtain ⟨kept, hkept, hkey, -⟩ :
      ∃ kept ∈ firstOfKey (fun item => normalizeTextKey tables item.text) []
          (elements.filterMap (usable tables)),
        normalizeTextKey tables kept.text = normalizeTextKey tables item.text ∧ _ :=
    exists_firstOfKey hmem hunseen
  by_cases hfull : maxItems ≤ (firstOfKey (fun item => normalizeTextKey tables item.text) []
      (elements.filterMap (usable tables))).length
  · exact .inr (List.length_take_of_le hfull)
  · rw [List.take_of_length_le (Nat.le_of_not_le hfull)]
    exact .inl ⟨kept, hkept, hkey⟩

/-- Items that are few, distinct and well-formed come of themselves. -/
theorem normalizeElements_elementOf (hfew : items.length ≤ maxItems)
    (hnodup : (items.map fun item => normalizeTextKey tables item.text).Nodup)
    (hitems : ∀ item ∈ items, WellFormed tables item) :
    normalizeElements tables (items.map elementOf) = items := by
  have huse : (items.map elementOf).filterMap (usable tables) = items := by
    rw [List.filterMap_map]
    refine (List.filterMap_congr fun item hitem => ?_).trans List.filterMap_some
    exact (hitems item hitem).usable_elementOf
  rw [normalizeElements_eq, huse, firstOfKey_eq_self hnodup (by simp), List.take_of_length_le hfew]

end Items

/-! ## What comes of an answer -/

section Answers

variable {overflowChecks : Bool} {read : List Char → Option Value} {tables : CaseTables}
  {elements : List RawElement} {items : List NewActionItem}

/-- The elements that are read of an answer, as `parse_action_items` looks for them. -/
def elementsOf (overflowChecks : Bool) (read : List Char → Option Value) (raw : List Char) :
    Option (Option (List RawElement)) :=
  let cleaned := stripCodeFences (trim raw)
  match (read cleaned).bind fun value => elementsFromValue (collapse value) with
  | some elements => some (some elements)
  | none =>
    match findJsonArray overflowChecks cleaned with
    | none => none
    | some none => some none
    | some (some slice) =>
      match read slice with
      | some (.array values) => some (values.mapM rawElement)
      | _ => some none

/-- What the items are that come of some elements. -/
structure Extracts (tables : CaseTables) (elements : List RawElement) (items : List NewActionItem) :
    Prop where
  /-- they are not too many -/
  few : items.length ≤ maxItems
  /-- no two of them are the same -/
  distinct : (items.map fun item => normalizeTextKey tables item.text).Nodup
  /-- each of them is as it should be -/
  wellFormed : ∀ item ∈ items, WellFormed tables item
  /-- and is that of an element -/
  found : ∀ item ∈ items, ∃ element ∈ elements, usable tables element = some item
  /-- there is one for each element that is one, unless there are too many -/
  complete : ∀ element ∈ elements, ∀ item, usable tables element = some item →
    (∃ kept ∈ items, normalizeTextKey tables kept.text = normalizeTextKey tables item.text) ∨
      items.length = maxItems
  /-- they come of themselves -/
  again : normalizeElements tables (items.map elementOf) = items

theorem extracts_normalizeElements (tables : CaseTables) (elements : List RawElement) :
    Extracts tables elements (normalizeElements tables elements) where
  few := normalizeElements_few tables elements
  distinct := nodup_normalizeElements tables elements
  wellFormed _ := wellFormed_of_mem
  found _ := mem_normalizeElements
  complete _ helement _ := exists_normalizeElements helement
  again := normalizeElements_elementOf (normalizeElements_few tables elements)
    (nodup_normalizeElements tables elements) fun _ => wellFormed_of_mem

theorem parseActionItems_eq (overflowChecks : Bool) (read : List Char → Option Value)
    (tables : CaseTables) (raw : List Char) :
    parseActionItems overflowChecks read tables raw =
      (elementsOf overflowChecks read raw).map fun found => found.map (normalizeElements tables) := by
  unfold parseActionItems elementsOf
  simp only
  split
  · rfl
  · split
    · rfl
    · rfl
    · split
      · rfl
      · rfl

/-- **Whatever a model answers**, the items that come of it are few and distinct, each of them is clean and
that of an element of the answer, none of the others is missed, and given back they would come again. -/
theorem parseActionItems_wellFormed (overflowChecks : Bool) (read : List Char → Option Value)
    (tables : CaseTables) (raw : List Char)
    (h : parseActionItems overflowChecks read tables raw = some (some items)) :
    ∃ elements, elementsOf overflowChecks read raw = some (some elements) ∧
      Extracts tables elements items := by
  rw [parseActionItems_eq] at h
  obtain ⟨found, hfound, hmap⟩ := Option.map_eq_some_iff.mp h
  obtain ⟨elements, rfl, rfl⟩ := Option.map_eq_some_iff.mp hmap
  exact ⟨elements, hfound, extracts_normalizeElements tables elements⟩

/-- An answer with one text, whatever it looks like. -/
def oneText (_ : List Char) : Option Value := some (.array [.string " Send  it. "])

theorem parseActionItems_wellFormed_oneText :
    ∃ elements, elementsOf false oneText "[]".toList = some (some elements) ∧
      Extracts .onlyAscii elements
        [⟨"Send it.", none, none, none, none, none⟩] := by
  refine parseActionItems_wellFormed false oneText .onlyAscii "[]".toList ?_
  rfl

end Answers

end ActionExtraction

end MeetilyLocal
