import OrionBroker.Registrations
import OrionBroker.SearchPattern
import OrionBroker.Separators
import OrionBroker.ServicePath
import OrionBroker.Stripping

/-!
# The service paths of a query (`rest.cpp`, `MongoGlobal.cpp`)

The header of a request is cut at its commas (`servicePathSplit`), and the paths become the text of a condition for the
database: regular expressions between slashes, so that the slashes of the paths are escaped, in a buffer of fixed length
(`slashEscape`).  Nothing is written to the buffer for an empty path, and a path is cut if it is too long.  The text is
read by `fromjson`, and the regular expressions are searched for by the database; both are parameters.

Without a header, or if there is nothing between its commas, the condition selects all paths.  For paths that fit into
the buffer it selects what they cover (`service_path_query`).
-/

namespace OrionBroker

open Bson

abbrev SERVICE_PATH_MAX_COMPONENTS : Nat := 10
abbrev SERVICE_PATH_MAX_TOTAL : Nat :=
  (((SERVICE_PATH_MAX_COMPONENT_LEN + 1) * SERVICE_PATH_MAX_LEVELS) + 2) * SERVICE_PATH_MAX_COMPONENTS

/-! ### The header -/

/-- The loop of `removeTrailingSlash`, on the path backwards; one character stays. -/
def dropSlashes : List Char → List Char
  | c :: d :: s => if c = '/' then dropSlashes (d :: s) else c :: d :: s
  | s => s

def removeTrailingSlash (path : List Char) : List Char := (dropSlashes path.reverse).reverse

/-- `servicePathSplit`: what it returns, and `servicePathV`. -/
def servicePathSplit (header : Option String) : Int × List String :=
  let servicePathV := stringSplit (header.getD "") ','
  if servicePathV.length = 0 then (0, [""])
  else if servicePathV.length > SERVICE_PATH_MAX_COMPONENTS then (-1, servicePathV)
  else
    let servicePathV := servicePathV.map fun path => String.ofList (removeTrailingSlash (wsStrip path.toList))
    match servicePathV.find? fun path => Rest.servicePathCheck header.isSome path ≠ 0 with
    | some path => (Rest.servicePathCheck header.isSome path, servicePathV)
    | none => (0, servicePathV)

namespace ServicePathQuery

/-! ### The condition -/

/-- The loop of `slashEscape`; the buffer has no content if nothing was written to it. -/
def slashEscapeLoop (toLen : Nat) : List Char → Option (List Char) → Option (List Char)
  | [], buffer => buffer
  | c :: path, buffer =>
    let written := buffer.getD []
    if written.length ≥ toLen - 2 then buffer
    else slashEscapeLoop toLen path (some (written ++ if c = '/' then ['\\', '/'] else [c]))

/-- `slashEscape`.  Accepted paths have no characters of more than one byte. -/
def slashEscape (path : List Char) (toLen : Nat) : Option (List Char) :=
  if path.length + path.count '/' + 1 > toLen then some "ERROR".toList else slashEscapeLoop toLen path none

/-- What is added for one path, from the content of its buffer. -/
def pathText (path : List Char) : List Char :=
  if path.getLast? = some '#' then
    let path := path.take (path.length - 3)
    "/^".toList ++ path ++ "$/, ".toList ++ ("/^".toList ++ path ++ "\\/.*/".toList)
  else "/^".toList ++ path ++ "$/".toList

/-- The loop of `fillQueryServicePath`; none if a buffer is read to which nothing was written. -/
def servicePathLoop : Bool → List String → Option (List Char)
  | _, [] => some []
  | nullAdded, path :: servicePath => do
    let addNull := !nullAdded && (path = "/" || path = "/#")
    let buffer ← slashEscape path.toList (SERVICE_PATH_MAX_TOTAL * 2)
    let rest ← servicePathLoop (nullAdded || addNull) servicePath
    return (if addNull then "null, ".toList else []) ++ pathText buffer ++
      (if servicePath = [] then [] else ", ".toList) ++ rest

/-- `fillQueryServicePath`: the text that is given to `fromjson`. -/
def fillQueryServicePath : List String → Option (List Char)
  | [] => none
  | first :: servicePath =>
    if first = "" then some "\x7b$in: [ /^\\/.*/, null] \x7d".toList
    else do
      let servicePathValue ← servicePathLoop false (first :: servicePath)
      return "\x7b $in: [ ".toList ++ servicePathValue ++ " ] \x7d".toList

/-- The condition on the service path of an entity, which may be missing. -/
def queryAccepts (fromjson : String → Option Criterion) (pcre : String → Option (String → Bool))
    (servicePath : List String) (stored : Option String) : Option Bool := do
  let text ← fillQueryServicePath servicePath
  let criterion ← fromjson (String.ofList text)
  return criterion.accepts pcre [stored.map .string]

/-! ### What is relied on -/

def escapeSlashes (path : List Char) : List Char := path.flatMap fun c => if c = '/' then ['\\', '/'] else [c]

/-- An element of a list for `fromjson`: null, or a regular expression between slashes. -/
def elementText : Option (List Char) → List Char
  | none => "null".toList
  | some pattern => '/' :: (escapeSlashes pattern ++ ['/'])

def element : Option (List Char) → InItem
  | none => .value .null
  | some pattern => .regex (String.ofList pattern)

/-- The lists of these elements are read: escaped slashes belong to the regular expression, and blanks at the ends are
skipped. -/
def ReadsLists (fromjson : String → Option Criterion) : Prop :=
  ∀ elements : List (Option (List Char)), elements ≠ [] →
    (∀ pattern, some pattern ∈ elements → ∀ c ∈ pattern, c ≠ '\\' ∧ 32 < c.toNat ∧ c.toNat < 127) →
    ∀ before ∈ ["", " "], ∀ after ∈ ["", " "],
      fromjson (String.ofList ("\x7b".toList ++ before.toList ++ "$in: [ ".toList ++
        Separators.separated ", ".toList (after.toList ++ "] \x7d".toList) (elements.map elementText))) =
          some (.isIn (elements.map element))

/-- Strings are searched for patterns as usual. -/
def Searches (pcre : String → Option (String → Bool)) : Prop :=
  ∀ pattern s : String, SearchPattern.Readable pattern.toList → '\n' ∉ s.toList →
    (regexHolds pcre pattern (some (.string s)) = true ↔ SearchPattern.Found pattern.toList s.toList)

/-! ### What the query is for -/

/-- A service path as it is stored with an entity. -/
structure StoredPath (p : String) : Prop where
  absolute : p.toList.head? = some '/'
  chars : ∀ c ∈ p.toList, pathChar c = true

/-- The query selects what one of the paths covers; a missing path counts as the root, and the whole of each path is
used. -/
structure SelectsPaths (fromjson : String → Option Criterion) (pcre : String → Option (String → Bool))
    (servicePath : List String) : Prop where
  stored : ∀ p, StoredPath p → (queryAccepts fromjson pcre servicePath (some p) = some true ↔
    ∃ sp ∈ servicePath, Covers sp.toList p.toList)
  missing : queryAccepts fromjson pcre servicePath none = some true ↔
    servicePath = [""] ∨ "/" ∈ servicePath ∨ "/#" ∈ servicePath
  whole : servicePath.head? ≠ some "" →
    ∀ sp ∈ servicePath, slashEscape sp.toList (SERVICE_PATH_MAX_TOTAL * 2) = some (escapeSlashes sp.toList)

/-- The path is not empty and fits into the buffer. -/
structure Fits (sp : String) : Prop where
  nonempty : sp ≠ ""
  length : (escapeSlashes sp.toList).length + 2 ≤ SERVICE_PATH_MAX_TOTAL * 2

/-! ### The text -/

theorem length_escapeSlashes (path : List Char) : (escapeSlashes path).length = path.length + path.count '/' := by
  induction path with
  | nil => rfl
  | cons c path ih =>
    rw [escapeSlashes, List.flatMap_cons, List.length_append, ← escapeSlashes, ih, List.length_cons, List.count_cons]
    by_cases hc : c = '/'
    · simp [hc]
      omega
    · simp [hc]
      omega

@[simp] theorem escapeSlashes_append (path rest : List Char) :
    escapeSlashes (path ++ rest) = escapeSlashes path ++ escapeSlashes rest := List.flatMap_append

theorem slashEscapeLoop_of_fits {toLen : Nat} {path : List Char} (hne : path ≠ []) (buffer : Option (List Char))
    (h : (buffer.getD []).length + (escapeSlashes path).length + 2 ≤ toLen) :
    slashEscapeLoop toLen path buffer = some (buffer.getD [] ++ escapeSlashes path) := by
  induction path generalizing buffer with
  | nil => exact absurd rfl hne
  | cons c path ih =>
    have hcons : escapeSlashes (c :: path) = (if c = '/' then ['\\', '/'] else [c]) ++ escapeSlashes path := rfl
    have hpos : 1 ≤ (if c = '/' then ['\\', '/'] else [c]).length := by split <;> simp
    rw [hcons, List.length_append] at h
    rw [slashEscapeLoop, hcons, if_neg (by omega)]
    by_cases hpath : path = []
    · rw [hpath, slashEscapeLoop]
      simp [escapeSlashes]
    · rw [ih hpath]
      · simp
      · rw [Option.getD_some, List.length_append]
        omega

/-- A path that fits is escaped as a whole. -/
theorem slashEscape_of_fits {sp : String} (h : Fits sp) :
    slashEscape sp.toList (SERVICE_PATH_MAX_TOTAL * 2) = some (escapeSlashes sp.toList) := by
  have hlength := h.length
  have hne : sp.toList ≠ [] := fun hnil => h.nonempty (String.toList_eq_nil_iff.1 hnil)
  have hbuffer := @slashEscapeLoop_of_fits (SERVICE_PATH_MAX_TOTAL * 2) _ hne none (by simpa using hlength)
  rw [length_escapeSlashes] at hlength
  rw [slashEscape, if_neg (by omega), hbuffer]
  simp

/-- The elements for a path. -/
def pathElements (path : List Char) : List (Option (List Char)) :=
  if path.getLast? = some '#' then
    let above := path.take (path.length - 2)
    [some (SearchPattern.alternatives above []), some (SearchPattern.beginning (above ++ ['/']))]
  else [some (SearchPattern.alternatives path [])]

theorem pathElements_plain {path : List Char} (h : path.getLast? ≠ some '#') :
    pathElements path = [some (SearchPattern.alternatives path [])] := if_neg h

theorem pathElements_wildcard (above : List Char) :
    pathElements (above ++ ['/', '#']) =
      [some (SearchPattern.alternatives above []), some (SearchPattern.beginning (above ++ ['/']))] := by
  simp [pathElements]

theorem pathElements_ne_nil (path : List Char) : pathElements path ≠ [] := by
  unfold pathElements
  split <;> simp

/-- A path that is not a wildcard, or one with a slash before the `#`. -/
def PathForm (path : List Char) : Prop :=
  (∀ c ∈ path, pathChar c = true) ∨ ∃ above, path = above ++ ['/', '#'] ∧ ∀ c ∈ above, pathChar c = true

theorem getLast_ne_of_chars {path : List Char} (h : ∀ c ∈ path, pathChar c = true) : path.getLast? ≠ some '#' := by
  intro hlast
  exact absurd (h '#' (List.mem_of_getLast? hlast)) (by decide)

theorem getLast_escapeSlashes_ne {path : List Char} (h : ∀ c ∈ path, pathChar c = true) :
    (escapeSlashes path).getLast? ≠ some '#' := by
  intro hlast
  obtain ⟨c, hc, hmem⟩ := List.mem_flatMap.1 (List.mem_of_getLast? hlast)
  split at hmem
  · simp at hmem
  · rw [← List.mem_singleton.1 hmem] at hc
    exact absurd (h '#' hc) (by decide)

theorem escapeSlashes_wildcard (above : List Char) :
    escapeSlashes (above ++ ['/', '#']) = escapeSlashes above ++ ['\\', '/', '#'] := by
  rw [escapeSlashes_append]
  rfl

/-- The text for a path is that of its elements. -/
theorem pathText_eq {path : List Char} (h : PathForm path) :
    pathText (escapeSlashes path) = Separators.separated ", ".toList [] ((pathElements path).map elementText) := by
  rcases h with hchars | ⟨above, rfl, -⟩
  · rw [pathElements_plain (getLast_ne_of_chars hchars), pathText, if_neg (getLast_escapeSlashes_ne hchars)]
    simp [Separators.separated, elementText, SearchPattern.alternatives, escapeSlashes]
  · have hlast : (escapeSlashes above ++ ['\\', '/', '#']).getLast? = some '#' := by simp
    rw [pathElements_wildcard, escapeSlashes_wildcard, pathText, if_pos hlast]
    simp [Separators.separated, elementText, SearchPattern.alternatives, SearchPattern.beginning, escapeSlashes]

/-- The elements of the condition: null is added once, for the root. -/
def elements : Bool → List String → List (Option (List Char))
  | _, [] => []
  | nullAdded, path :: servicePath =>
    let addNull := !nullAdded && (path = "/" || path = "/#")
    (if addNull then [none] else []) ++ pathElements path.toList ++ elements (nullAdded || addNull) servicePath

theorem elements_eq_nil_iff {nullAdded : Bool} {servicePath : List String} :
    elements nullAdded servicePath = [] ↔ servicePath = [] := by
  cases servicePath with
  | nil => exact iff_of_true rfl rfl
  | cons path servicePath => simp [elements, pathElements_ne_nil]

/-- The loop writes the elements with commas between them. -/
theorem servicePathLoop_eq {servicePath : List String} (h : ∀ sp ∈ servicePath, Fits sp ∧ PathForm sp.toList)
    (nullAdded : Bool) :
    servicePathLoop nullAdded servicePath =
      some (Separators.separated ", ".toList [] ((elements nullAdded servicePath).map elementText)) := by
  induction servicePath generalizing nullAdded with
  | nil => rfl
  | cons path servicePath ih =>
    obtain ⟨hfits, hform⟩ := h path List.mem_cons_self
    have hrest := fun nullAdded => ih (fun sp hsp => h sp (List.mem_cons_of_mem _ hsp)) nullAdded
    rw [servicePathLoop, slashEscape_of_fits hfits]
    generalize hadd : (!nullAdded && (path = "/" || path = "/#" : Bool)) = addNull
    simp only [Option.bind_eq_bind, Option.bind_some, hrest, Option.pure_def, Option.some.injEq, elements, hadd]
    rw [pathText_eq hform]
    have hpath : ((pathElements path.toList).map elementText) ≠ [] := by simp [pathElements_ne_nil]
    have hback : Separators.separated ", ".toList []
        ((pathElements path.toList ++ elements (nullAdded || addNull) servicePath).map elementText) =
          Separators.separated ", ".toList [] ((pathElements path.toList).map elementText) ++
            (if servicePath = [] then [] else ", ".toList) ++
            Separators.separated ", ".toList [] ((elements (nullAdded || addNull) servicePath).map elementText) := by
      rw [List.map_append]
      by_cases hnil : servicePath = []
      · simp [hnil, elements, Separators.separated]
      · rw [if_neg hnil, Separators.separated_append_of_ne hpath (by simp [elements_eq_nil_iff, hnil])]
    cases addNull with
    | false => simpa using hback.symm
    | true =>
      have hne : (pathElements path.toList ++ elements (nullAdded || true) servicePath).map elementText ≠ [] := by
        simp [pathElements_ne_nil]
      rw [if_pos rfl, if_pos rfl, List.append_assoc [none], List.singleton_append, List.map_cons,
        Separators.separated_cons_of_ne _ hne, hback]
      simp [elementText]

/-! ### What the elements select -/

theorem inert_of_pathChar {text : List Char} (h : ∀ c ∈ text, pathChar c = true) : SearchPattern.inert text = true := by
  induction text with
  | nil => rfl
  | cons c text ih =>
    have hc := h c List.mem_cons_self
    have hnot : c ∉ ['\\', '^', '$', '.', '[', '|', '(', ')', '?', '*', '+'] := by
      simp only [List.mem_cons, List.not_mem_nil, or_false, not_or]
      refine ⟨?_, ?_, ?_, ?_, ?_, ?_, ?_, ?_, ?_, ?_, ?_⟩ <;> rintro rfl <;> exact absurd hc (by decide)
    have hbrace : c ≠ '\x7b' := by
      rintro rfl
      exact absurd hc (by decide)
    rw [SearchPattern.inert, ih fun d hd => h d (List.mem_cons_of_mem _ hd), decide_eq_false hnot, decide_eq_false hbrace]
    rfl

theorem StoredPath.no_newline {p : String} (h : StoredPath p) : '\n' ∉ p.toList := fun hmem =>
  absurd (h.chars '\n' hmem) (by decide)

section Elements

variable {pcre : String → Option (String → Bool)} {p : String}

theorem holds_anchored_iff (hpcre : Searches pcre) (hp : StoredPath p) {text : List Char}
    (h : ∀ c ∈ text, pathChar c = true) :
    (element (some (SearchPattern.alternatives text []))).holds pcre (some (.string p)) = true ↔ p.toList = text := by
  have hinert : ∀ t ∈ [text], SearchPattern.inert t = true := by
    intro t ht
    rw [List.mem_singleton.1 ht]
    exact inert_of_pathChar h
  have hread := SearchPattern.readable_alternatives hinert
  rw [element, InItem.holds, hpcre _ _ (by rwa [String.toList_ofList]) hp.no_newline, String.toList_ofList,
    SearchPattern.found_alternatives hinert, List.mem_singleton]

theorem holds_beginning_iff (hpcre : Searches pcre) (hp : StoredPath p) {text : List Char}
    (h : ∀ c ∈ text, pathChar c = true) :
    (element (some (SearchPattern.beginning text))).holds pcre (some (.string p)) = true ↔ text <+: p.toList := by
  have hinert := inert_of_pathChar h
  have hread := SearchPattern.readable_beginning hinert
  rw [element, InItem.holds, hpcre _ _ (by rwa [String.toList_ofList]) hp.no_newline, String.toList_ofList,
    SearchPattern.found_beginning hinert]

/-- The elements for a path select what it covers. -/
theorem pathElements_holds_iff (hpcre : Searches pcre) (hp : StoredPath p) {path : List Char} (h : PathForm path) :
    (∃ e ∈ pathElements path, (element e).holds pcre (some (.string p)) = true) ↔ Covers path p.toList := by
  rcases h with hchars | ⟨above, rfl, habove⟩
  · rw [pathElements_plain (getLast_ne_of_chars hchars)]
    simp only [List.mem_singleton, exists_eq_left, holds_anchored_iff hpcre hp hchars]
    constructor
    · intro heq
      exact .inl heq.symm
    · rintro (heq | ⟨above, rfl, -⟩)
      · exact heq.symm
      · exact absurd (by simp) (getLast_ne_of_chars hchars)
  · have hslash : ∀ c ∈ above ++ ['/'], pathChar c = true := by
      intro c hc
      rcases List.mem_append.1 hc with hc | hc
      · exact habove c hc
      · rw [List.mem_singleton.1 hc]
        decide
    rw [pathElements_wildcard]
    simp only [List.mem_cons, List.not_mem_nil, or_false, exists_eq_or_imp, exists_eq_left,
      holds_anchored_iff hpcre hp habove, holds_beginning_iff hpcre hp hslash]
    constructor
    · rintro (heq | hbegins)
      · exact .inr ⟨above, rfl, .inl heq.symm⟩
      · exact .inr ⟨above, rfl, .inr hbegins⟩
    · rintro (heq | ⟨above', heq, hcovers⟩)
      · have hlast : p.toList.getLast? = some '#' := by
          rw [← heq]
          simp
        exact absurd hlast (getLast_ne_of_chars hp.chars)
      · rw [List.append_left_inj] at heq
        rw [heq]
        exact hcovers.imp Eq.symm id

theorem null_holds_string : (element none).holds pcre (some (.string p)) = false := by
  simp [element, InItem.holds, Comparison.holds, BSONValue.canonicalType]

/-- A missing path is selected by null. -/
theorem holds_missing_iff (e : Option (List Char)) : (element e).holds pcre none = true ↔ e = none := by
  cases e with
  | none => exact iff_of_true rfl rfl
  | some pattern => simp [element, InItem.holds, regexHolds]

theorem some_mem_elements_iff {pattern : List Char} {nullAdded : Bool} {servicePath : List String} :
    some pattern ∈ elements nullAdded servicePath ↔ ∃ sp ∈ servicePath, some pattern ∈ pathElements sp.toList := by
  induction servicePath generalizing nullAdded with
  | nil => simp [elements]
  | cons path servicePath ih =>
    rw [elements, List.mem_append, List.mem_append, ih, List.exists_mem_cons_iff]
    refine or_congr_left (or_iff_right ?_)
    split <;> simp

theorem none_not_mem_pathElements (path : List Char) : none ∉ pathElements path := by
  unfold pathElements
  split <;> simp

theorem none_mem_elements_iff {nullAdded : Bool} {servicePath : List String} :
    none ∈ elements nullAdded servicePath ↔ nullAdded = false ∧ ("/" ∈ servicePath ∨ "/#" ∈ servicePath) := by
  induction servicePath generalizing nullAdded with
  | nil => simp [elements]
  | cons path servicePath ih =>
    rw [elements, List.mem_append, List.mem_append, ih, or_iff_left (none_not_mem_pathElements _), List.mem_cons, List.mem_cons]
    cases nullAdded with
    | true => simp
    | false =>
      by_cases hroot : path = "/" ∨ path = "/#"
      · rcases hroot with rfl | rfl <;> simp
      · rw [not_or] at hroot
        simp [hroot.1, hroot.2, Ne.symm hroot.1, Ne.symm hroot.2]

/-! ### The query -/

theorem pathChar_printable {c : Char} (h : pathChar c = true) : c ≠ '\\' ∧ 32 < c.toNat ∧ c.toNat < 127 := by
  refine ⟨?_, ?_⟩
  · rintro rfl
    exact absurd h (by decide)
  · simp only [pathChar, Char.isAlphanum, Char.isAlpha, Char.isUpper, Char.isLower, Char.isDigit, Bool.or_eq_true,
      Bool.and_eq_true, decide_eq_true_eq, ge_iff_le, UInt32.le_iff_toNat_le] at h
    have hnat : c.toNat = c.val.toNat := rfl
    rcases h with (h | rfl) | rfl
    · simp at h
      omega
    · decide
    · decide

/-- The regular expressions are made of the characters of the paths and of anchors, a dot and a star. -/
theorem elements_printable {servicePath : List String} (h : ∀ sp ∈ servicePath, PathForm sp.toList) {pattern : List Char}
    (hpattern : some pattern ∈ elements false servicePath) : ∀ c ∈ pattern, c ≠ '\\' ∧ 32 < c.toNat ∧ c.toNat < 127 := by
  have hanchor : ∀ c ∈ ['^', '$', '.', '*', '/'], c ≠ '\\' ∧ 32 < c.toNat ∧ c.toNat < 127 := by
    intro c hc
    simp only [List.mem_cons, List.not_mem_nil, or_false] at hc
    rcases hc with rfl | rfl | rfl | rfl | rfl <;> decide
  obtain ⟨sp, hsp, hmem⟩ := some_mem_elements_iff.1 hpattern
  intro c hc
  have hpart : (∃ text : List Char, (∀ d ∈ text, pathChar d = true) ∧ c ∈ text) ∨ c ∈ ['^', '$', '.', '*', '/'] := by
    rcases h sp hsp with hchars | ⟨above, habove, hchars⟩
    · rw [pathElements_plain (getLast_ne_of_chars hchars), List.mem_singleton, Option.some.injEq] at hmem
      simp only [hmem, SearchPattern.alternatives, List.mem_cons, List.mem_append, List.flatMap_nil, List.not_mem_nil,
        or_false] at hc ⊢
      rcases hc with hc | hc | hc
      · exact .inr (.inl hc)
      · exact .inl ⟨_, hchars, hc⟩
      · exact .inr (.inr (.inl hc))
    · rw [habove, pathElements_wildcard] at hmem
      simp only [List.mem_cons, List.not_mem_nil, or_false, Option.some.injEq] at hmem
      rcases hmem with rfl | rfl
      · simp only [SearchPattern.alternatives, List.mem_cons, List.mem_append, List.flatMap_nil, List.not_mem_nil,
          or_false] at hc ⊢
        rcases hc with hc | hc | hc
        · exact .inr (.inl hc)
        · exact .inl ⟨_, hchars, hc⟩
        · exact .inr (.inr (.inl hc))
      · simp only [SearchPattern.beginning, List.mem_cons, List.mem_append, List.not_mem_nil, or_false] at hc ⊢
        rcases hc with hc | (hc | hc) | hc | hc
        · exact .inr (.inl hc)
        · exact .inl ⟨_, hchars, hc⟩
        · exact .inr (.inr (.inr (.inr (.inr hc))))
        · exact .inr (.inr (.inr (.inl hc)))
        · exact .inr (.inr (.inr (.inr (.inl hc))))
  rcases hpart with ⟨text, htext, hmem⟩ | hmem
  · exact pathChar_printable (htext c hmem)
  · exact hanchor c hmem

variable {fromjson : String → Option Criterion}

/-- A path is selected if an element does it. -/
theorem queryAccepts_iff (hjson : ReadsLists fromjson) {servicePath : List String} {es : List (Option (List Char))}
    (hes : es ≠ []) (hchars : ∀ pattern, some pattern ∈ es → ∀ c ∈ pattern, c ≠ '\\' ∧ 32 < c.toNat ∧ c.toNat < 127)
    {before after : String} (hbefore : before ∈ ["", " "]) (hafter : after ∈ ["", " "])
    (htext : fillQueryServicePath servicePath = some ("\x7b".toList ++ before.toList ++ "$in: [ ".toList ++
      Separators.separated ", ".toList (after.toList ++ "] \x7d".toList) (es.map elementText))) (stored : Option String) :
    queryAccepts fromjson pcre servicePath stored = some true ↔
      ∃ e ∈ es, (element e).holds pcre (stored.map .string) = true := by
  rw [queryAccepts, htext]
  simp only [Option.bind_eq_bind, Option.bind_some, hjson es hes hchars before hbefore after hafter]
  simp [Criterion.accepts]

theorem servicePathSplit_accepted {header : Option String} (h : (servicePathSplit header).1 = 0) :
    (servicePathSplit header).2 = [""] ∨
      ((servicePathSplit header).2 ≠ [] ∧ ∀ sp ∈ (servicePathSplit header).2, Rest.servicePathCheck true sp = 0) := by
  unfold servicePathSplit at h ⊢
  dsimp only at h ⊢
  split at h
  · rename_i hnone
    rw [if_pos hnone]
    exact .inl rfl
  · rename_i hsome
    rw [if_neg hsome]
    split at h
    · cases h
    · rename_i hmax
      rw [if_neg hmax]
      have hgiven : header.isSome = true := by
        cases header with
        | none => exact absurd rfl hsome
        | some header => rfl
      rw [hgiven] at h ⊢
      split at h
      · rename_i path hpath
        have hcheck := List.find?_some hpath
        simp only [ne_eq, decide_not, Bool.not_eq_true', decide_eq_false_iff_not] at hcheck
        exact absurd (Int.natCast_eq_zero.1 h) hcheck
      · rename_i hfind
        right
        refine ⟨fun hnil => hsome ?_, fun sp hsp => ?_⟩
        · simpa using congrArg List.length hnil
        · simpa using List.find?_eq_none.1 hfind sp hsp

/-- Without paths the query selects everything. -/
theorem default_query (hjson : ReadsLists fromjson) (hpcre : Searches pcre) :
    (∀ p, StoredPath p → queryAccepts fromjson pcre [""] (some p) = some true) ∧
      queryAccepts fromjson pcre [""] none = some true := by
  have hslash : ∀ c ∈ ['/'], pathChar c = true := by
    intro c hc
    rw [List.mem_singleton.1 hc]
    decide
  have haccepts := @queryAccepts_iff pcre fromjson hjson [""] [some (SearchPattern.beginning ['/']), none] (by simp)
    (by simp [SearchPattern.beginning]) "" "" (by simp) (by simp)
    (by decide +kernel)
  refine ⟨fun p hp => (haccepts (some p)).2 ⟨_, List.mem_cons_self, ?_⟩, (haccepts none).2 ⟨none, by simp, ?_⟩⟩
  · obtain ⟨rest, hrest⟩ := List.head?_eq_some_iff.1 hp.absolute
    refine (holds_beginning_iff hpcre hp hslash).2 ?_
    rw [hrest]
    exact ⟨rest, rfl⟩
  · exact (holds_missing_iff none).2 rfl

/-- Paths that fit select what they cover. -/
theorem selectsPaths_of_fits (hjson : ReadsLists fromjson) (hpcre : Searches pcre) {servicePath : List String}
    (hne : servicePath ≠ []) (h : ∀ sp ∈ servicePath, Fits sp ∧ PathForm sp.toList) :
    SelectsPaths fromjson pcre servicePath := by
  obtain ⟨first, rest, rfl⟩ := List.exists_cons_of_ne_nil hne
  have hfirst := (h first List.mem_cons_self).1.nonempty
  have hes : elements false (first :: rest) ≠ [] := by simp [elements_eq_nil_iff]
  have htext : fillQueryServicePath (first :: rest) = some ("\x7b".toList ++ " ".toList ++ "$in: [ ".toList ++
      Separators.separated ", ".toList (" ".toList ++ "] \x7d".toList) ((elements false (first :: rest)).map elementText)) := by
    rw [fillQueryServicePath, if_neg hfirst, servicePathLoop_eq h, Separators.separated_last _ (" ".toList ++ "] \x7d".toList) (by simpa using hes)]
    simp
  have haccepts := fun stored => @queryAccepts_iff pcre fromjson hjson (first :: rest) _ hes
    (fun pattern hpattern => elements_printable (fun sp hsp => (h sp hsp).2) hpattern) " " " " (by simp) (by simp) htext stored
  refine ⟨fun p hp => ?_, ?_, fun _ sp hsp => slashEscape_of_fits (h sp hsp).1⟩
  · rw [haccepts]
    constructor
    · rintro ⟨e, he, hholds⟩
      cases e with
      | none =>
        rw [Option.map_some, null_holds_string] at hholds
        cases hholds
      | some pattern =>
        obtain ⟨sp, hsp, hmem⟩ := some_mem_elements_iff.1 he
        exact ⟨sp, hsp, (pathElements_holds_iff hpcre hp (h sp hsp).2).1 ⟨_, hmem, hholds⟩⟩
    · rintro ⟨sp, hsp, hcovers⟩
      obtain ⟨e, he, hholds⟩ := (pathElements_holds_iff hpcre hp (h sp hsp).2).2 hcovers
      cases e with
      | none => exact absurd he (none_not_mem_pathElements _)
      | some pattern => exact ⟨some pattern, some_mem_elements_iff.2 ⟨sp, hsp, he⟩, hholds⟩
  · have hdefault : first :: rest ≠ [""] := fun heq => hfirst (List.head_eq_of_cons_eq heq)
    rw [haccepts, or_iff_right hdefault]
    simp only [Option.map_none, holds_missing_iff, exists_eq_right, none_mem_elements_iff, true_and]

/-- A query without paths selects everything; a query on paths that fit selects what they cover. -/
theorem service_path_query (hjson : ReadsLists fromjson) (hpcre : Searches pcre) {header : Option String}
    (h : (servicePathSplit header).1 = 0) :
    ((servicePathSplit header).2 = [""] →
        (∀ p, StoredPath p → queryAccepts fromjson pcre (servicePathSplit header).2 (some p) = some true) ∧
          queryAccepts fromjson pcre (servicePathSplit header).2 none = some true) ∧
      ((∀ sp ∈ (servicePathSplit header).2, Fits sp) → SelectsPaths fromjson pcre (servicePathSplit header).2) := by
  refine ⟨fun hdefault => ?_, fun hfits => ?_⟩
  · rw [hdefault]
    exact default_query hjson hpcre
  · rcases servicePathSplit_accepted h with hdefault | ⟨hne, hchecks⟩
    · rw [hdefault] at hfits
      exact absurd rfl (hfits "" (by simp)).nonempty
    · refine selectsPaths_of_fits hjson hpcre hne fun sp hsp => ⟨hfits sp hsp, ?_⟩
      exact (toList_of_check (hchecks sp hsp) (hfits sp hsp).nonempty).2

end Elements

/-! ### The items of a query for registrations -/

/-- An element as it stands between the slashes of the text. -/
def escapedElement : Option (List Char) → InItem
  | none => .value .null
  | some pattern => .regex (String.ofList (escapeSlashes pattern))

/-- Accepted paths have characters of one byte. -/
theorem utf8ByteSize_of_pathForm {path : List Char} (h : PathForm path) : (String.ofList path).utf8ByteSize = path.length := by
  have hascii : ∀ c ∈ path, c.toNat < 127 := by
    intro c hc
    rcases h with hchars | ⟨above, rfl, hchars⟩
    · exact (pathChar_printable (hchars c hc)).2.2
    · rcases List.mem_append.1 hc with hc | hc
      · exact (pathChar_printable (hchars c hc)).2.2
      · simp only [List.mem_cons, List.not_mem_nil, or_false] at hc
        rcases hc with rfl | rfl <;> decide
  clear h
  induction path with
  | nil => rfl
  | cons c path ih =>
    have hc : c.utf8Size = 1 := by
      rw [Char.utf8Size_eq_one_iff, UInt32.le_iff_toNat_le]
      exact Nat.le_of_lt (hascii c List.mem_cons_self)
    have hsplit : String.ofList (c :: path) = String.singleton c ++ String.ofList path := by
      rw [← String.toList_inj]
      simp
    rw [hsplit, String.utf8ByteSize_append, String.utf8ByteSize_singleton, hc,
      ih fun d hd => hascii d (List.mem_cons_of_mem _ hd), List.length_cons, Nat.add_comm]

theorem servicePathPatterns_eq {sp : String} (hfits : Fits sp) (hform : PathForm sp.toList) :
    servicePathPatterns sp = (pathElements sp.toList).map escapedElement := by
  have hescape : OrionBroker.slashEscape sp (servicePathMaxTotal * 2) = String.ofList (escapeSlashes sp.toList) := by
    have hsize := utf8ByteSize_of_pathForm hform
    have hlength := hfits.length
    rw [String.ofList_toList] at hsize
    rw [length_escapeSlashes] at hlength
    have hmax : servicePathMaxTotal = SERVICE_PATH_MAX_TOTAL := rfl
    rw [OrionBroker.slashEscape, if_neg (by omega)]
    rfl
  rw [servicePathPatterns, hescape]
  rcases hform with hchars | ⟨above, habove, -⟩
  · rw [pathElements_plain (getLast_ne_of_chars hchars), String.toList_ofList]
    dsimp only
    rw [if_neg (getLast_escapeSlashes_ne hchars)]
    simp [escapedElement, SearchPattern.alternatives, escapeSlashes, ← String.toList_inj]
  · have hlast : (escapeSlashes above ++ ['\\', '/', '#']).getLast? = some '#' := by simp
    have htake : (escapeSlashes above ++ ['\\', '/', '#']).take
        ((String.ofList (escapeSlashes above ++ ['\\', '/', '#'])).length - 3) = escapeSlashes above := by
      rw [String.length_ofList]
      simp
    rw [habove, escapeSlashes_wildcard, pathElements_wildcard, String.toList_ofList]
    dsimp only
    rw [if_pos hlast, htake]
    simp [escapedElement, SearchPattern.alternatives, SearchPattern.beginning, escapeSlashes, ← String.toList_inj]

/-- The query for registrations has the same elements. -/
theorem registrations_items {first : String} {servicePath : List String}
    (h : ∀ sp ∈ first :: servicePath, Fits sp ∧ PathForm sp.toList) :
    OrionBroker.fillQueryServicePath first servicePath = (elements false (first :: servicePath)).map escapedElement := by
  have hitems : ∀ servicePath : List String, (∀ sp ∈ servicePath, Fits sp ∧ PathForm sp.toList) → ∀ nullAdded,
      servicePathItems nullAdded servicePath = (elements nullAdded servicePath).map escapedElement := by
    intro servicePath h
    induction servicePath with
    | nil => intro nullAdded; rfl
    | cons sp servicePath ih =>
      intro nullAdded
      obtain ⟨hfits, hform⟩ := h sp List.mem_cons_self
      rw [servicePathItems, elements, servicePathPatterns_eq hfits hform,
        ih (fun sp hsp => h sp (List.mem_cons_of_mem _ hsp)), List.map_append, List.map_append]
      congr 2
      split <;> rfl
  rw [OrionBroker.fillQueryServicePath, if_neg (h first List.mem_cons_self).1.nonempty, hitems _ h]

/-! ### A reader of lists -/

/-- Where the reader is: between two regular expressions, inside one, or behind a backslash in one. -/
inductive Reading where
  | between
  | inside (pattern : List Char)
  | escaped (pattern : List Char)

/-- What stands between slashes is a regular expression, and an `n` outside belongs to null. -/
def readElements : Reading → List Char → List (Option (List Char))
  | _, [] => []
  | .between, c :: s =>
    if c = '/' then readElements (.inside []) s
    else (if c = 'n' then [none] else []) ++ readElements .between s
  | .inside pattern, c :: s =>
    if c = '\\' then readElements (.escaped pattern) s
    else if c = '/' then some pattern :: readElements .between s
    else readElements (.inside (pattern ++ [c])) s
  | .escaped pattern, c :: s => readElements (.inside (pattern ++ [c])) s

def readList (text : String) : Option Criterion :=
  some (.isIn ((readElements .between (text.toList.dropWhile (· ≠ '['))).map element))

theorem readElements_inside {rest : List Char} (h : '\\' ∉ rest) (pattern s : List Char) :
    readElements (.inside pattern) (escapeSlashes rest ++ '/' :: s) =
      some (pattern ++ rest) :: readElements .between s := by
  induction rest generalizing pattern with
  | nil => simp [escapeSlashes, readElements]
  | cons c rest ih =>
    rw [List.mem_cons, not_or] at h
    have hcons : escapeSlashes (c :: rest) = (if c = '/' then ['\\', '/'] else [c]) ++ escapeSlashes rest := rfl
    have hnext := ih h.2 (pattern ++ [c])
    rw [List.append_assoc, List.singleton_append] at hnext
    by_cases hc : c = '/'
    · subst hc
      rw [hcons, if_pos rfl, List.cons_append, List.cons_append, List.cons_append, List.cons_append, List.nil_append,
        readElements, if_pos rfl, readElements]
      exact hnext
    · rw [hcons, if_neg hc, List.singleton_append, List.cons_append, readElements, if_neg (Ne.symm h.1), if_neg hc]
      exact hnext

theorem readElements_element {e : Option (List Char)} (h : ∀ pattern, some pattern = e → '\\' ∉ pattern) (s : List Char) :
    readElements .between (elementText e ++ s) = e :: readElements .between s := by
  cases e with
  | none => simp [elementText, readElements]
  | some pattern =>
    rw [elementText, List.cons_append, readElements, if_pos rfl, List.append_assoc, List.singleton_append,
      readElements_inside (h pattern rfl), List.nil_append]

theorem readsLists_readList : ReadsLists readList := by
  intro es hne hchars before hbefore after hafter
  have hslashes : ∀ e ∈ es, ∀ pattern, some pattern = e → '\\' ∉ pattern := by
    rintro e he pattern rfl hmem
    exact (hchars pattern he _ hmem).1 rfl
  have hend : readElements .between (after.toList ++ "] \x7d".toList) = [] := by
    simp only [List.mem_cons, List.not_mem_nil, or_false] at hafter
    rcases hafter with rfl | rfl <;> simp [readElements]
  have hread : readElements .between
      (Separators.separated ", ".toList (after.toList ++ "] \x7d".toList) (es.map elementText)) = es := by
    clear hchars
    induction es with
    | nil => exact absurd rfl hne
    | cons e es ih =>
      have he := hslashes e List.mem_cons_self
      by_cases hnil : es = []
      · rw [hnil, List.map_singleton, Separators.separated, readElements_element he, hend]
      · rw [List.map_cons, Separators.separated_cons_of_ne _ (by simpa using hnil), List.append_assoc,
          readElements_element he]
        have hrest := ih hnil fun e' he' => hslashes e' (List.mem_cons_of_mem _ he')
        simpa [readElements] using hrest
  simp only [List.mem_cons, List.not_mem_nil, or_false] at hbefore
  have hstart : ∀ s : List Char, readElements .between
      (("\x7b".toList ++ before.toList ++ "$in: [ ".toList ++ s).dropWhile (· ≠ '[')) = readElements .between s := by
    intro s
    rcases hbefore with rfl | rfl <;> simp [readElements]
  rw [readList, String.toList_ofList, hstart, hread]

/-- A database that searches as usual. -/
theorem exists_searches : ∃ pcre, Searches pcre := by
  classical
  refine ⟨fun pattern => some fun s => decide (SearchPattern.Found pattern.toList s.toList), fun pattern s _ _ => ?_⟩
  simp [regexHolds]

theorem service_path_query_wildcard :
    ∃ pcre, Searches pcre ∧ SelectsPaths readList pcre ["/a", "/b/#"] := by
  obtain ⟨pcre, hpcre⟩ := exists_searches
  have hsplit : servicePathSplit (some "/a, /b/#/") = (0, ["/a", "/b/#"]) := by decide +kernel
  have hquery := (@service_path_query pcre readList readsLists_readList hpcre (some "/a, /b/#/") (by rw [hsplit])).2
  rw [hsplit] at hquery
  refine ⟨pcre, hpcre, hquery fun sp hsp => ?_⟩
  simp only [List.mem_cons, List.not_mem_nil, or_false] at hsp
  rcases hsp with rfl | rfl <;> exact ⟨by decide, by decide⟩

/-- Without a header `/a` is selected, which is covered by no path of the vector. -/
theorem default_selects_uncovered :
    ¬∀ fromjson pcre, ReadsLists fromjson → Searches pcre → ∀ header, (servicePathSplit header).1 = 0 →
      SelectsPaths fromjson pcre (servicePathSplit header).2 := by
  intro h
  obtain ⟨pcre, hpcre⟩ := exists_searches
  have hsplit : servicePathSplit none = (0, [""]) := by decide +kernel
  have hselects := h readList pcre readsLists_readList hpcre none (by rw [hsplit])
  rw [hsplit] at hselects
  have hp : StoredPath "/a" := by
    refine ⟨by decide, fun c hc => ?_⟩
    have hchars : "/a".toList = ['/', 'a'] := by decide
    rw [hchars, List.mem_cons, List.mem_singleton] at hc
    rcases hc with rfl | rfl <;> decide
  obtain ⟨sp, hsp, hcovers⟩ := (hselects.stored "/a" hp).1 ((default_query readsLists_readList hpcre).1 "/a" hp)
  rw [List.mem_singleton.1 hsp] at hcovers
  rcases hcovers with heq | ⟨above, heq, -⟩
  · exact absurd heq (by decide)
  · simp at heq

end ServicePathQuery

end OrionBroker
