import OrionBroker.Text
import OrionBroker.AnchoredPattern

/-!
# Service paths (`string.cpp`, `rest.cpp`, `subCache.cpp`, `MongoCommonUpdate.cpp`)

A subscription is triggered by the updates on its service path, and on the paths below it if it ends in `/#`.  The
subscription cache decides this with `servicePathMatch`, by comparing characters; without the cache the database does,
with the regular expression that `servicePathSubscriptionRegex` makes from the components of the path of the update.

`Covers` is what both aim at.  The paths are those that the functions `servicePathCheck` let through, which may have
empty components and several slashes in front.  `service_path_agreement_iff` says for which paths the two decide the
same.
-/

namespace OrionBroker

abbrev SERVICE_PATH_MAX_LEVELS : Nat := 10
abbrev SERVICE_PATH_MAX_COMPONENT_LEN : Nat := 50

/-- Leading delimiters are skipped; the components after that may be empty. -/
def stringSplit (s : String) (delimiter : Char) : List String :=
  let rest := s.toList.dropWhile (· = delimiter)
  if rest = [] then [] else (rest.splitOn delimiter).map String.ofList

/-! ### Accepted paths -/

/-- A component is made of letters, digits and underscores; the last one may also be `#`. -/
def componentAllowed (last : Bool) (comp : String) : Bool :=
  (last && comp = "#") || comp.toList.all fun c => c.isAlphanum || c = '_'

/-- `servicePathCheck` of `rest.cpp`, applied to every service path that is received; 0 lets the path through. -/
def Rest.servicePathCheck (servicePathReceived : Bool) (servicePath : String) : Nat :=
  if servicePathReceived = false then 0
  else if servicePath = "" then 0
  else if servicePath.toList.head? ≠ some '/' then 1
  else
    let compV := stringSplit servicePath '/'
    if compV.length > SERVICE_PATH_MAX_LEVELS then 2
    else
      -- the loop stops at the first component that is too long or has an illegal character
      match compV.zipIdx.find? fun (comp, ix) =>
          comp.utf8ByteSize > SERVICE_PATH_MAX_COMPONENT_LEN || !componentAllowed (ix = compV.length - 1) comp with
      | some (comp, _) => if comp.utf8ByteSize > SERVICE_PATH_MAX_COMPONENT_LEN then 3 else 4
      | none => 0

/-- `servicePathCheck` of `string.cpp`, applied in addition to the service path of an update. -/
def Common.servicePathCheck (servicePath : String) : String :=
  if servicePath.toList.all fun c => c.isAlphanum || c = '_' || c = '/' then "OK" else "Bad Character in Service-Path"

/-! ### The two ways to match -/

/-- The match of the cache; `none` if it reads outside the path of the subscription. -/
def servicePathMatch (subServicePath servicePath : String) : Option Bool :=
  let spath := subServicePath.toList
  if servicePath = "/#" then some true
  else if servicePath = "" ∧ subServicePath = "" then some true
  else
    let path := if servicePath = "" then ['/'] else servicePath.toList
    match spath.getLast? with
    | none => none
    | some last =>
      if last ≠ '#' then some (path = spath)
      else if spath.length < 2 then none
      else
        let len := spath.length - 2
        if spath[len]? = some '/' ∧ path.length = len ∧ spath.take len = path.take len then some true
        else
          let len := spath.length - 1
          some (spath.take len = path.take len)

/-- A subscription on `/#`, on the path itself, or on `/#` below one of the paths that lead to it; an empty path of a
subscription is matched always, and `/` if the update has no components. -/
def servicePathSubscriptionRegex (servicePath : String) : String :=
  let spathV := if servicePath ≠ "" then stringSplit servicePath '/' else []
  if spathV.length = 0 then "^$|^\\/#$|^\\/$"
  else
    "^$|^\\/#$" ++
      String.join ((List.range spathV.length).map fun ix =>
        "|^" ++ String.join ((spathV.take (ix + 1)).map ("\\/" ++ ·)) ++ "\\/#$") ++
      "|^" ++ String.join (spathV.map ("\\/" ++ ·)) ++ "$"

/-! ### What the checks promise -/

/-- A subscription on `sub` is meant for the updates on `path`: it is on the same path, or on `/#` at or above it. -/
def Covers (sub path : List Char) : Prop :=
  sub = path ∨ ∃ above, sub = above ++ ['/', '#'] ∧ (above = path ∨ above ++ ['/'] <+: path)

/-- What is left of a path without the slashes in front. -/
def unslashed (path : String) : List Char := path.toList.dropWhile (· = '/')

private theorem componentAllowed_of_check {path : String} (h : Rest.servicePathCheck true path = 0) (hne : path ≠ "") :
    path.toList.head? = some '/' ∧
      ∀ comp ∈ (stringSplit path '/').zipIdx, componentAllowed (comp.2 = (stringSplit path '/').length - 1) comp.1 = true := by
  unfold Rest.servicePathCheck at h
  rw [if_neg (by decide), if_neg hne] at h
  split at h
  · cases h
  · rename_i hhead
    refine ⟨by simpa using hhead, ?_⟩
    dsimp only at h
    split at h
    · cases h
    · split at h
      · split at h <;> cases h
      · rename_i hnone
        intro comp hcomp
        have hallowed := List.find?_eq_none.1 hnone comp hcomp
        simp only [Bool.or_eq_true, Bool.not_eq_true', not_or, Bool.not_eq_false] at hallowed
        exact hallowed.2

/-- A path that starts with a slash, taken apart after its last slash in front. -/
private theorem toList_eq_front {path : String} (h : path.toList.head? = some '/') :
    ∃ front, path.toList = front ++ '/' :: unslashed path ∧ ∀ c ∈ front, c = '/' := by
  have hsplit := (List.takeWhile_append_dropWhile (p := (· = '/')) (l := path.toList)).symm
  have hslash : ∀ c ∈ path.toList.takeWhile (· = '/'), c = '/' := by
    intro c hc
    simpa using List.mem_takeWhile_imp hc
  have hne : path.toList.takeWhile (· = '/') ≠ [] := by
    obtain ⟨s, hs⟩ := List.head?_eq_some_iff.1 h
    rw [hs]
    simp
  obtain ⟨front, c, hc⟩ := (List.eq_nil_or_concat _).resolve_left hne
  refine ⟨front, ?_, ?_⟩
  · rw [hc] at hsplit hslash
    rw [hslash c (by simp)] at hsplit
    rw [hsplit, unslashed]
    simp
  · intro d hd
    exact hslash d (by rw [hc]; simp [hd])

private theorem stringSplit_eq {path : String} (h : unslashed path ≠ []) :
    stringSplit path '/' = ((unslashed path).splitOn '/').map String.ofList := by
  unfold stringSplit
  exact if_neg h

/-- The characters of a path that is not a wildcard. -/
def pathChar (c : Char) : Bool := c.isAlphanum || c = '_' || c = '/'

/-- An accepted path has no other characters but a `/#` at its end. -/
theorem toList_of_check {path : String} (h : Rest.servicePathCheck true path = 0) (hne : path ≠ "") :
    path.toList.head? = some '/' ∧
      ((∀ c ∈ path.toList, pathChar c = true) ∨
        ∃ above, path.toList = above ++ ['/', '#'] ∧ ∀ c ∈ above, pathChar c = true) := by
  obtain ⟨hhead, hcomp⟩ := componentAllowed_of_check h hne
  refine ⟨hhead, ?_⟩
  obtain ⟨front, hfront, hslashes⟩ := toList_eq_front hhead
  have hslash : ∀ c ∈ front, pathChar c = true := by
    intro c hc
    rw [hslashes c hc]
    decide
  by_cases hrest : unslashed path = []
  · left
    rw [hfront, hrest]
    intro c hc
    rcases List.mem_append.1 hc with hc | hc
    · exact hslash c hc
    · rw [List.mem_singleton.1 hc]
      decide
  · obtain ⟨init, comp, hsplit⟩ := (List.eq_nil_or_concat _).resolve_left (List.splitOn_ne_nil '/' (unslashed path))
    have hsplit' : stringSplit path '/' = init.map String.ofList ++ [String.ofList comp] := by
      rw [stringSplit_eq hrest, hsplit]
      simp
    -- the path is what leads to its last component
    have hjoin : path.toList = (front ++ init.flatMap ('/' :: ·)) ++ '/' :: comp := by
      rw [hfront, ← Text.flatMap_splitOn '/' (unslashed path), hsplit]
      simp
    have hchars : ∀ {last : Bool} {t : List Char}, t ≠ ['#'] ∨ last = false → componentAllowed last (String.ofList t) = true →
        ∀ c ∈ t, pathChar c = true := by
      intro last t hlast hallowed c hc
      unfold componentAllowed at hallowed
      rw [Bool.or_eq_true, String.toList_ofList, List.all_eq_true] at hallowed
      rcases hallowed with hwildcard | hall
      · rw [Bool.and_eq_true, decide_eq_true_eq] at hwildcard
        have ht : t = ['#'] := by simpa using congrArg String.toList hwildcard.2
        rcases hlast with hlast | hlast
        · exact absurd ht hlast
        · rw [hlast] at hwildcard
          exact absurd hwildcard.1 (by decide)
      · have hc := hall c hc
        unfold pathChar
        simp only [Bool.or_eq_true] at hc ⊢
        exact .inl hc
    have hinit : ∀ t ∈ init, ∀ c ∈ t, pathChar c = true := by
      intro t ht
      obtain ⟨ix, hix, rfl⟩ := List.getElem_of_mem ht
      refine hchars (.inr ?_) (hcomp (String.ofList init[ix], ix) ?_)
      · rw [hsplit']
        simp
        omega
      · rw [hsplit', List.mem_zipIdx_iff_getElem?]
        simp [List.getElem?_append, hix]
    have habove : ∀ c ∈ front ++ init.flatMap ('/' :: ·), pathChar c = true := by
      intro c hc
      rcases List.mem_append.1 hc with hc | hc
      · exact hslash c hc
      · obtain ⟨t, ht, hc⟩ := List.mem_flatMap.1 hc
        rcases List.mem_cons.1 hc with rfl | hc
        · decide
        · exact hinit t ht c hc
    by_cases hwildcard : comp = ['#']
    · right
      exact ⟨_, by rw [hjoin, hwildcard], habove⟩
    · left
      rw [hjoin]
      intro c hc
      rcases List.mem_append.1 hc with hc | hc
      · exact habove c hc
      · rcases List.mem_cons.1 hc with rfl | hc
        · decide
        · refine hchars (.inl hwildcard) (hcomp (String.ofList comp, init.length) ?_) c hc
          rw [hsplit', List.mem_zipIdx_iff_getElem?]
          simp

/-- An accepted path in which a `#` stands at the end has a slash before it. -/
private theorem wildcard_of_check {path : String} (h : Rest.servicePathCheck true path = 0)
    (hlast : path.toList.getLast? = some '#') : ∃ above, path.toList = above ++ ['/', '#'] := by
  have hne : path ≠ "" := by
    rintro rfl
    cases hlast
  rcases (toList_of_check h hne).2 with hchars | ⟨above, habove, -⟩
  · exact absurd (hchars '#' (List.mem_of_getLast? hlast)) (by decide)
  · exact ⟨above, habove⟩

/-! ### The match of the cache -/

private theorem servicePathMatch_wildcard {sub path : String} {above : List Char} (hs : sub.toList = above ++ ['/', '#'])
    (hp : '#' ∉ path.toList) :
    servicePathMatch sub path = some true ↔
      above = (if path = "" then ['/'] else path.toList) ∨
        above ++ ['/'] <+: (if path = "" then ['/'] else path.toList) := by
  have hp' : path ≠ "/#" := by
    rintro rfl
    exact hp (by decide)
  have hs' : sub ≠ "" := by
    rintro rfl
    simp at hs
  have hlast : sub.toList.getLast? = some '#' := by rw [hs]; simp
  have hlen : sub.toList.length = above.length + 2 := by rw [hs]; simp
  have hslash : sub.toList[above.length]? = some '/' := by rw [hs]; simp
  have htake : sub.toList.take above.length = above := by rw [hs]; simp
  have htake' : sub.toList.take (above.length + 1) = above ++ ['/'] := by
    rw [hs, List.take_append]
    simp
  unfold servicePathMatch
  rw [if_neg hp', if_neg (fun h => hs' h.2)]
  simp only [hlast, hlen]
  rw [if_neg (by decide), if_neg (by omega)]
  simp only [Nat.add_sub_cancel, hslash, htake, true_and,
    show above.length + 2 - 1 = above.length + 1 by omega, htake']
  generalize (if path = "" then ['/'] else path.toList) = target
  have hfirst : (target.length = above.length ∧ above = target.take above.length) ↔ above = target := by
    constructor
    · rintro ⟨hl, he⟩
      rw [he, ← hl, List.take_length]
    · rintro rfl
      exact ⟨rfl, (List.take_length).symm⟩
  have hsecond : above ++ ['/'] = target.take (above.length + 1) ↔ above ++ ['/'] <+: target := by
    rw [List.prefix_iff_eq_take]
    simp
  simp only [hfirst, hsecond]
  by_cases h : above = target
  · simp [h]
  · simp [h]

/-- The cache lets a subscription on a non-empty path through exactly if it covers the path of the update; an empty
path of an update counts as `/`. -/
theorem servicePathMatch_iff {sub path : String} (hs : Rest.servicePathCheck true sub = 0) (hp : '#' ∉ path.toList) :
    servicePathMatch sub path = some true ↔
      (sub = "" ∧ path = "") ∨ (sub ≠ "" ∧ Covers sub.toList (if path = "" then ['/'] else path.toList)) := by
  by_cases hsub : sub = ""
  · subst hsub
    have hp' : path ≠ "/#" := by
      rintro rfl
      exact hp (by decide)
    by_cases hpath : path = ""
    · simp [servicePathMatch, hpath]
    · simp [servicePathMatch, hpath, hp']
  · obtain ⟨c, hc⟩ : ∃ c, sub.toList.getLast? = some c := by
      cases hl : sub.toList.getLast? with
      | none => exact absurd (String.toList_eq_nil_iff.1 (List.getLast?_eq_none_iff.1 hl)) hsub
      | some c => exact ⟨c, rfl⟩
    by_cases hw : c = '#'
    · rw [hw] at hc
      obtain ⟨above, habove⟩ := wildcard_of_check hs hc
      rw [servicePathMatch_wildcard habove hp]
      have hne : sub.toList ≠ if path = "" then ['/'] else path.toList := by
        intro he
        have : '#' ∈ sub.toList := List.mem_of_getLast? hc
        rw [he] at this
        split at this
        · revert this; decide
        · exact hp this
      constructor
      · intro h
        exact Or.inr ⟨hsub, Or.inr ⟨above, habove, h⟩⟩
      · rintro (h | ⟨-, h | ⟨above', habove', h⟩⟩)
        · exact absurd h.1 hsub
        · exact absurd h hne
        · rw [habove, List.append_left_inj] at habove'
          rw [habove']
          exact h
    · have hp' : path ≠ "/#" := by
        rintro rfl
        exact hp (by decide)
      have hno : ¬ ∃ above, sub.toList = above ++ ['/', '#'] := by
        rintro ⟨above, habove⟩
        rw [habove] at hc
        exact hw (by simpa using hc.symm)
      unfold servicePathMatch
      rw [if_neg hp', if_neg (fun h => hsub h.2)]
      simp only [hc, if_pos hw, Option.some.injEq, decide_eq_true_eq]
      constructor
      · intro h
        exact Or.inr ⟨hsub, Or.inl h.symm⟩
      · rintro (h | ⟨-, h | ⟨above, habove, -⟩⟩)
        · exact absurd h.1 hsub
        · exact h.symm
        · exact absurd ⟨above, habove⟩ hno

/-! ### The regular expression -/

private theorem escape_components {comps : List (List Char)} (h : ∀ c ∈ comps, '/' ∉ c) :
    AnchoredPattern.escape '/' (comps.flatMap ('/' :: ·)) = comps.flatMap ('\\' :: '/' :: ·) := by
  induction comps with
  | nil => rfl
  | cons c comps ih =>
    have hc : AnchoredPattern.escape '/' c = c := by
      have : ∀ d ∈ c, (if d = '/' then ['\\', d] else [d]) = [d] := by
        intro d hd
        have hne : d ≠ '/' := by
          rintro rfl
          exact h c List.mem_cons_self hd
        exact if_neg hne
      rw [AnchoredPattern.escape, List.flatMap_congr this]
      simp
    have ih := ih fun d hd => h d (List.mem_cons_of_mem _ hd)
    rw [List.flatMap_cons, List.flatMap_cons, ← ih]
    conv => rhs; rw [← hc]
    simp [AnchoredPattern.escape]

/-- The paths of subscriptions that an update with these components triggers. -/
private def literals (comps : List (List Char)) : List (List Char) :=
  ['/', '#'] :: ((List.range comps.length).map fun ix => (comps.take (ix + 1)).flatMap ('/' :: ·) ++ ['/', '#']) ++
    [comps.flatMap ('/' :: ·)]

private theorem toList_servicePathSubscriptionRegex {path : String} (hne : path ≠ "") (hr : unslashed path ≠ []) :
    (servicePathSubscriptionRegex path).toList =
      AnchoredPattern.union '/' [] (literals ((unslashed path).splitOn '/')) := by
  have hslash : ∀ c ∈ (unslashed path).splitOn '/', '/' ∉ c := fun c hc => Text.not_mem_of_mem_splitOn hc
  have hcomps := List.splitOn_ne_nil '/' (unslashed path)
  unfold servicePathSubscriptionRegex
  rw [if_pos hne, stringSplit_eq hr]
  generalize (unslashed path).splitOn '/' = comps at hslash hcomps
  have hescape : ∀ n, AnchoredPattern.escape '/' ((comps.take n).flatMap ('/' :: ·)) =
      (comps.take n).flatMap ('\\' :: '/' :: ·) := by
    intro n
    exact escape_components fun c hc => hslash c (List.mem_of_mem_take hc)
  have hpart : ∀ n, (String.join (((comps.map String.ofList).take n).map ("\\/" ++ ·))).toList =
      AnchoredPattern.escape '/' ((comps.take n).flatMap ('/' :: ·)) := by
    intro n
    rw [hescape, String.toList_join, ← List.map_take, List.flatMap_map, List.flatMap_map]
    simp
  have hall := hpart comps.length
  rw [← List.length_map String.ofList, List.take_length, List.length_map, List.take_length] at hall
  rw [if_neg (by simpa using hcomps)]
  simp only [String.toList_append, hall, String.toList_join, List.flatMap_map, hpart, List.length_map]
  simp [AnchoredPattern.union, literals, AnchoredPattern.anchored, List.flatMap_append, List.flatMap_map,
    AnchoredPattern.escape]

private theorem plain_of_check {path : String} (h : Common.servicePathCheck path = "OK") :
    ∀ c ∈ path.toList, AnchoredPattern.plain c = true ∧ c ≠ '#' := by
  intro c hc
  unfold Common.servicePathCheck at h
  split at h
  · rename_i hall
    have := List.all_eq_true.1 hall c hc
    constructor
    · by_contra hp
      unfold AnchoredPattern.plain at hp
      rw [Bool.not_eq_true, Bool.not_eq_false', decide_eq_true_eq] at hp
      fin_cases hp <;> revert this <;> decide
    · rintro rfl
      revert this
      decide
  · exact absurd h (by decide)

/-- The regular expression matches an empty path, `/#`, and otherwise the paths that cover the path of the update with
a single slash in front; of those that cover the root, `//#` is left out. -/
theorem accepts_servicePathSubscriptionRegex_iff {sub path : String} (hp : Common.servicePathCheck path = "OK") :
    AnchoredPattern.accepts (servicePathSubscriptionRegex path) sub = true ↔
      sub = "" ∨ sub = "/#" ∨ (unslashed path = [] ∧ sub = "/") ∨
        (unslashed path ≠ [] ∧ Covers sub.toList ('/' :: unslashed path)) := by
  have hnil : sub.toList = [] ↔ sub = "" := String.toList_eq_nil_iff
  have hlit : ∀ s : String, sub.toList = s.toList ↔ sub = s := fun s => String.toList_inj
  by_cases hr : unslashed path = []
  · have hregex : servicePathSubscriptionRegex path = "^$|^\\/#$|^\\/$" := by
      have hsplit : (if path ≠ "" then stringSplit path '/' else []) = [] := by
        split
        · unfold stringSplit
          exact if_pos hr
        · rfl
      unfold servicePathSubscriptionRegex
      rw [hsplit]
      rfl
    have hlang : AnchoredPattern.language (servicePathSubscriptionRegex path) = some ["".toList, "/#".toList, "/".toList] := by
      rw [hregex]
      decide
    unfold AnchoredPattern.accepts
    rw [hlang]
    simp only [Option.any_some, decide_eq_true_eq, List.mem_cons, hlit, List.not_mem_nil, or_false, hr, true_and,
      ne_eq, not_true_eq_false, false_and]
  · have hne : path ≠ "" := by
      rintro rfl
      exact hr rfl
    have hslash : ∀ c ∈ (unslashed path).splitOn '/', '/' ∉ c := fun c hc => Text.not_mem_of_mem_splitOn hc
    have hmem : ∀ c ∈ unslashed path, c ∈ path.toList := fun c hc => (List.dropWhile_suffix _).subset hc
    have hplain : ∀ lit ∈ [] :: literals ((unslashed path).splitOn '/'), ∀ c ∈ lit, AnchoredPattern.plain c = true := by
      have hcomps : ∀ n, ∀ c ∈ (((unslashed path).splitOn '/').take n).flatMap ('/' :: ·),
          AnchoredPattern.plain c = true := by
        intro n c hc
        obtain ⟨comp, hcomp, hc⟩ := List.mem_flatMap.1 hc
        rcases List.mem_cons.1 hc with rfl | hc
        · decide
        · rcases List.mem_cons.1 (Text.mem_of_mem_splitOn (List.mem_of_mem_take hcomp) hc) with rfl | hc
          · decide
          · exact (plain_of_check hp c (hmem c hc)).1
      intro lit hlit c hc
      unfold literals at hlit
      simp only [List.cons_append, List.mem_cons, List.mem_append, List.mem_map, List.not_mem_nil, or_false] at hlit
      rcases hlit with rfl | rfl | ⟨ix, -, rfl⟩ | rfl
      · cases hc
      · fin_cases hc <;> decide
      · rcases List.mem_append.1 hc with hc | hc
        · exact hcomps _ c hc
        · fin_cases hc <;> decide
      · exact hcomps ((unslashed path).splitOn '/').length c (by rwa [List.take_length])
    have hlang := AnchoredPattern.language_union (by decide) hplain (toList_servicePathSubscriptionRegex hne hr)
    unfold AnchoredPattern.accepts
    rw [hlang]
    simp only [Option.any_some, decide_eq_true_eq, literals, List.cons_append, List.mem_cons, List.mem_append,
      List.mem_map, List.not_mem_nil, or_false, hnil, Text.flatMap_splitOn]
    have hwild : sub.toList = ['/', '#'] ↔ sub = "/#" := hlit "/#"
    rw [hwild]
    simp only [hr, false_and, false_or, ne_eq, not_false_eq_true, true_and]
    refine or_congr_right ?_
    -- a path above the update ends where a component of it does
    have hcover : Covers sub.toList ('/' :: unslashed path) ↔ sub.toList = '/' :: unslashed path ∨
        ∃ n ≤ ((unslashed path).splitOn '/').length,
          sub.toList = (((unslashed path).splitOn '/').take n).flatMap ('/' :: ·) ++ ['/', '#'] := by
      unfold Covers
      refine or_congr_right ?_
      rw [← Text.flatMap_splitOn '/' (unslashed path)]
      simp only [Text.boundary_iff hslash]
      constructor
      · rintro ⟨above, hs, n, hn, rfl⟩
        exact ⟨n, hn, hs⟩
      · rintro ⟨n, hn, hs⟩
        exact ⟨_, hs, n, hn, rfl⟩
    rw [hcover]
    constructor
    · rintro (h | ⟨ix, hix, h⟩ | h)
      · exact Or.inl h
      · exact Or.inr (Or.inr ⟨ix + 1, List.mem_range.1 hix, h.symm⟩)
      · exact Or.inr (Or.inl h)
    · rintro (h | h | ⟨n, hn, h⟩)
      · exact Or.inl h
      · exact Or.inr (Or.inr h)
      · cases n with
        | zero => exact Or.inl (hwild.1 (by simpa using h))
        | succ n => exact Or.inr (Or.inl ⟨n, List.mem_range.2 hn, h.symm⟩)

/-! ### Agreement -/

/-- The paths for which the two ways to match agree.  If the path of the update starts with two slashes, the regular
expression is made for the path with a single one, so a subscription is decided alike only if it is on `/#` or covers
neither of the two.  Otherwise they differ on an empty path of a subscription, which the regular expression always
matches, and on `//#`, which the cache matches to the root. -/
def AgreeingPaths (sub path : String) : Prop :=
  if ['/', '/'] <+: path.toList then
    sub = "/#" ∨
      (sub ≠ "" ∧ ¬ Covers sub.toList path.toList ∧ ¬ Covers sub.toList ('/' :: unslashed path))
  else (sub = "" → path = "") ∧ ¬ (sub = "//#" ∧ unslashed path = [])

private theorem covers_wildcard (path : List Char) : Covers "/#".toList ('/' :: path) :=
  Or.inr ⟨[], rfl, Or.inr (by simp)⟩

private theorem covers_root_iff {sub : String} : Covers sub.toList ['/'] ↔ sub = "/" ∨ sub = "/#" ∨ sub = "//#" := by
  have hlit : ∀ s : String, sub.toList = s.toList ↔ sub = s := fun s => String.toList_inj
  constructor
  · rintro (h | ⟨above, hs, rfl | ⟨t, ht⟩⟩)
    · exact Or.inl ((hlit "/").1 h)
    · exact Or.inr (Or.inr ((hlit "//#").1 hs))
    · cases above with
      | nil => exact Or.inr (Or.inl ((hlit "/#").1 hs))
      | cons c above => simp at ht
  · rintro (rfl | rfl | rfl)
    · exact Or.inl rfl
    · exact covers_wildcard []
    · exact Or.inr ⟨['/'], rfl, Or.inl rfl⟩

/-- A path with two slashes in front and the same path with one have only `/#` above them in common. -/
private theorem covers_both {sub path : String} (hp : ['/', '/'] <+: path.toList) (hc : '#' ∉ path.toList)
    (hr : unslashed path ≠ []) (h : Covers sub.toList path.toList) (h' : Covers sub.toList ('/' :: unslashed path)) :
    sub = "/#" := by
  obtain ⟨t, ht⟩ := hp
  obtain ⟨c, r, hcr⟩ := List.exists_cons_of_ne_nil hr
  have hslash : c ≠ '/' := by
    have := List.head_dropWhile_not (p := (· = '/')) (l := path.toList) hr
    have hhead : (unslashed path).head hr = c := by simp [hcr]
    unfold unslashed at hhead
    rw [hhead] at this
    simpa using this
  rw [hcr] at h'
  rcases h with h | ⟨above, hs, h⟩
  · rcases h' with h' | ⟨above', hs', -⟩
    · rw [h, ← ht] at h'
      simp only [List.cons_append, List.nil_append, List.cons.injEq, true_and] at h'
      exact absurd h'.1.symm hslash
    · exact absurd (by rw [← h, hs']; simp) hc
  · rcases h' with h' | ⟨above', hs', h'⟩
    · have : '#' ∈ '/' :: c :: r := by rw [← h', hs]; simp
      have hmem : '#' ∈ unslashed path := by rw [hcr]; simpa using this
      exact absurd ((List.dropWhile_suffix _).subset hmem) hc
    · rw [hs, List.append_left_inj] at hs'
      rw [← hs'] at h'
      -- the second character of the path above would be a slash and not be one
      match above, h, h' with
      | [], _, _ => exact String.toList_inj.1 (by rw [hs]; rfl)
      | [d], _, h' =>
        rcases h' with h' | ⟨u, hu⟩
        · simp at h'
        · simp only [List.cons_append, List.nil_append, List.cons.injEq] at hu
          exact absurd hu.2.1.symm hslash
      | d :: e :: above, h, h' =>
        have he : e = '/' := by
          rcases h with h | ⟨u, hu⟩
          · rw [← ht] at h
            simp only [List.cons_append, List.nil_append, List.cons.injEq] at h
            exact h.2.1
          · rw [← ht] at hu
            simp only [List.cons_append, List.nil_append, List.cons.injEq] at hu
            exact hu.2.1
        have he' : e = c := by
          rcases h' with h' | ⟨u, hu⟩
          · simp only [List.cons.injEq] at h'
            exact h'.2.1
          · simp only [List.cons_append, List.cons.injEq] at hu
            exact hu.2.1
        exact absurd (he'.symm.trans he) hslash

private theorem path_eq_single {path : String} (hhead : path.toList.head? = some '/')
    (h : ¬ ['/', '/'] <+: path.toList) : path.toList = '/' :: unslashed path := by
  obtain ⟨front, hfront, hall⟩ := toList_eq_front hhead
  cases front with
  | nil => exact hfront
  | cons c front =>
    exfalso
    apply h
    rw [hfront, hall c List.mem_cons_self]
    cases front with
    | nil => exact ⟨_, rfl⟩
    | cons d front =>
      rw [hall d (by simp)]
      exact ⟨_, rfl⟩

private theorem agreement_doubled {sub path : String} (hd : ['/', '/'] <+: path.toList) (hc : '#' ∉ path.toList) :
    ((sub ≠ "" ∧ Covers sub.toList path.toList) ↔
        (sub = "" ∨ sub = "/#" ∨ (unslashed path = [] ∧ sub = "/") ∨
          (unslashed path ≠ [] ∧ Covers sub.toList ('/' :: unslashed path)))) ↔
      sub = "/#" ∨
        (sub ≠ "" ∧ ¬ Covers sub.toList path.toList ∧ ¬ Covers sub.toList ('/' :: unslashed path)) := by
  obtain ⟨t, ht⟩ := hd
  have hroot : ¬ Covers "/".toList path.toList := by
    rw [← ht]
    rintro (h | ⟨above, hs, -⟩)
    · simp at h
    · have := congrArg List.length hs
      simp at this
  have hwild : Covers "/#".toList path.toList := by
    rw [← ht]
    exact covers_wildcard _
  constructor
  · intro hiff
    by_cases hsub : sub = "/#"
    · exact Or.inl hsub
    refine Or.inr ⟨?_, ?_, ?_⟩
    · intro h
      exact (hiff.2 (Or.inl h)).1 h
    · intro h
      have hne : sub ≠ "" := by
        intro he
        exact (hiff.2 (Or.inl he)).1 he
      rcases hiff.1 ⟨hne, h⟩ with he | he | ⟨-, he⟩ | ⟨hr, h'⟩
      · exact hne he
      · exact hsub he
      · rw [he] at h
        exact hroot h
      · exact hsub (covers_both ⟨t, ht⟩ hc hr h h')
    · intro h
      by_cases hr : unslashed path = []
      · rw [hr, covers_root_iff] at h
        rcases h with rfl | rfl | rfl
        · exact hroot (hiff.2 (Or.inr (Or.inr (Or.inl ⟨hr, rfl⟩)))).2
        · exact hsub rfl
        · have hcover : Covers "//#".toList path.toList := Or.inr ⟨['/'], rfl, Or.inr (by rw [← ht]; simp)⟩
          rcases hiff.1 ⟨by decide, hcover⟩ with he | he | ⟨-, he⟩ | ⟨hr', -⟩
          · revert he; decide
          · revert he; decide
          · revert he; decide
          · exact hr' hr
      · exact hsub (covers_both ⟨t, ht⟩ hc hr (hiff.2 (Or.inr (Or.inr (Or.inr ⟨hr, h⟩)))).2 h)
  · rintro (rfl | ⟨hne, h, h'⟩)
    · exact ⟨fun _ => Or.inr (Or.inl rfl), fun _ => ⟨by decide, hwild⟩⟩
    · refine ⟨fun hm => absurd hm.2 h, ?_⟩
      rintro (he | rfl | ⟨hr, rfl⟩ | ⟨-, h''⟩)
      · exact absurd he hne
      · exact absurd hwild h
      · refine absurd ?_ h'
        rw [hr]
        exact Or.inl rfl
      · exact absurd h'' h'

private theorem agreement_single {sub path : String} :
    (((sub = "" ∧ path = "") ∨ (sub ≠ "" ∧ Covers sub.toList ('/' :: unslashed path))) ↔
        (sub = "" ∨ sub = "/#" ∨ (unslashed path = [] ∧ sub = "/") ∨
          (unslashed path ≠ [] ∧ Covers sub.toList ('/' :: unslashed path)))) ↔
      (sub = "" → path = "") ∧ ¬ (sub = "//#" ∧ unslashed path = []) := by
  by_cases hsub : sub = ""
  · simp [hsub]
  · by_cases hr : unslashed path = []
    · rw [hr, covers_root_iff]
      by_cases hw : sub = "//#"
      · subst hw
        simp
      · simp [hsub, hw, or_comm]
    · have hw : sub = "/#" → Covers sub.toList ('/' :: unslashed path) := by
        rintro rfl
        exact covers_wildcard _
      simp only [hsub, hr, false_and, false_or, ne_eq, not_false_eq_true, true_and, and_false, false_implies,
        iff_true]
      exact ⟨Or.inr, fun h => h.elim hw id⟩

/-- For service paths that are let through, the cache and the regular expression of the query decide alike exactly for
the paths of `AgreeingPaths`. -/
theorem service_path_agreement_iff {sub path : String} (hs : Rest.servicePathCheck true sub = 0)
    (hp : Rest.servicePathCheck true path = 0) (hc : Common.servicePathCheck path = "OK") :
    (servicePathMatch sub path = some true ↔
        AnchoredPattern.accepts (servicePathSubscriptionRegex path) sub = true) ↔ AgreeingPaths sub path := by
  have hhash : '#' ∉ path.toList := fun hm => (plain_of_check hc _ hm).2 rfl
  rw [servicePathMatch_iff hs hhash, accepts_servicePathSubscriptionRegex_iff hc]
  unfold AgreeingPaths
  by_cases hd : ['/', '/'] <+: path.toList
  · have hne : path ≠ "" := by
      rintro rfl
      simp at hd
    rw [if_pos hd, if_neg hne]
    simp only [hne, and_false, false_or]
    exact agreement_doubled hd hhash
  · rw [if_neg hd]
    have htarget : (if path = "" then ['/'] else path.toList) = '/' :: unslashed path := by
      split
      · rename_i he
        rw [he]
        rfl
      · rename_i hne
        exact path_eq_single (componentAllowed_of_check hp hne).1 hd
    rw [htarget]
    exact agreement_single

/-- The subscription on `/a/#` gets the update on `/a/b` either way. -/
theorem service_path_agreement_below :
    AgreeingPaths "/a/#" "/a/b" ∧
      (servicePathMatch "/a/#" "/a/b" = some true ↔
        AnchoredPattern.accepts (servicePathSubscriptionRegex "/a/b") "/a/#" = true) := by
  have hagree : AgreeingPaths "/a/#" "/a/b" := by
    unfold AgreeingPaths
    rw [if_neg (by decide)]
    exact ⟨fun h => absurd h (by decide), fun h => absurd h.1 (by decide)⟩
  exact ⟨hagree, (service_path_agreement_iff (by decide) (by decide) (by decide)).2 hagree⟩

/-- A subscription without service path gets the update on `/a` from the query, and one on `//a` gets the update on
`//a` from the cache only. -/
theorem service_path_disagreement :
    Rest.servicePathCheck true "" = 0 ∧ Rest.servicePathCheck true "/a" = 0 ∧ Common.servicePathCheck "/a" = "OK" ∧
      Rest.servicePathCheck true "//a" = 0 ∧ Common.servicePathCheck "//a" = "OK" ∧
      ¬ (servicePathMatch "" "/a" = some true ↔
        AnchoredPattern.accepts (servicePathSubscriptionRegex "/a") "" = true) ∧
      ¬ (servicePathMatch "//a" "//a" = some true ↔
        AnchoredPattern.accepts (servicePathSubscriptionRegex "//a") "//a" = true) := by
  decide

end OrionBroker
