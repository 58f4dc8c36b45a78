import OrionBroker.StringFilterParser

/-!
# The parts of a string filter (`StringFilter.cpp`)

A string is accepted if every part between its `;` is, with one exception: one `;` at the beginning is skipped.
-/

namespace OrionBroker

/-! ### Inside the buffer -/

/-- Nothing outside a buffer was looked at. -/
def Inside {α : Type} (result : Except ParseFailure α) : Prop := result ≠ .error .outside

theorem inside_ok {α : Type} (a : α) : Inside (.ok a) := by simp [Inside]

theorem inside_error {α : Type} (text : String) : Inside (.error (.error text) : Except ParseFailure α) := by
  simp [Inside]

theorem Inside.bind {α β : Type} {result : Except ParseFailure α} {f : α → Except ParseFailure β}
    (h : Inside result) (hf : ∀ a, Inside (f a)) : Inside (result >>= f) := by
  cases result with
  | error e => exact fun he => h (by cases he; rfl)
  | ok a => exact hf a

theorem forcedString_inside (s : List Char) : Inside (forcedString s) := by
  have hlast : lastChar ['\''] s ≠ none := by simp [lastChar]
  unfold forcedString
  split
  · rename_i hnone
    exact absurd hnone hlast
  · split
    · exact inside_error _
    · split
      · exact inside_error _
      · exact inside_ok _

namespace StringFilterItem

variable (lib : CLibrary) (item : StringFilterItem)

theorem valueGet_inside (s : List Char) (double : Bson.Double) (string : String) (bool : Bool) :
    Inside (valueGet lib s double string bool) := by
  unfold valueGet
  split
  · exact (forcedString_inside _).bind fun t => inside_ok _
  · split
    · exact inside_ok _
    · dsimp only
      repeat' split
      all_goals exact inside_ok _

theorem valueParse_inside (s : List Char) : Inside (valueParse lib item s) := by
  refine (valueGet_inside lib s _ _ _).bind fun v => ?_
  dsimp only
  repeat' split
  all_goals first | exact inside_ok _ | exact inside_error _

theorem rangeParse_inside (s : List Char) : Inside (rangeParse lib item s) := by
  unfold rangeParse
  split
  · exact inside_error _
  · split
    · exact inside_error _
    · dsimp only
      split
      · exact inside_error _
      · refine (valueGet_inside lib _ _ _ _).bind fun vFrom => ?_
        split
        · exact inside_error _
        · refine (valueGet_inside lib _ _ _ _).bind fun vTo => ?_
          repeat' split
          all_goals first | exact inside_ok _ | exact inside_error _

theorem listItemAdd_inside (s : List Char) : Inside (listItemAdd lib item s) := by
  unfold listItemAdd
  dsimp only
  split
  · exact inside_error _
  · refine (valueGet_inside lib _ _ _ _).bind fun v => ?_
    split
    · exact inside_error _
    · exact inside_ok _

theorem listLoop_inside (pending : List Char) (inString : Bool) (s : List Char) :
    Inside (listLoop lib item pending inString s) := by
  induction s generalizing item pending inString with
  | nil =>
    unfold listLoop
    split
    · exact inside_ok _
    · exact listItemAdd_inside lib item _
  | cons c s ih =>
    unfold listLoop
    split
    · split
      · exact ih item _ _
      · exact ih item _ _
    · split
      · have hadd := listItemAdd_inside lib item (upToZero pending)
        split
        · rename_i e he
          rw [he] at hadd
          exact fun h => hadd (by cases h; rfl)
        · split
          · exact inside_error _
          · exact ih _ _ _
      · exact ih item _ _

theorem parseSides_inside (s : List Char) : Inside (parseSides lib s) := by
  unfold parseSides
  dsimp only
  split
  · exact inside_error _
  · split
    · exact inside_error _
    · split
      · exact inside_error _
      · split
        · exact inside_ok _
        · split
          · exact rangeParse_inside lib _ _
          · split
            · unfold listParse
              split
              · exact inside_error _
              · exact listLoop_inside lib _ _ _ _
            · exact valueParse_inside lib _ _

theorem parse_inside (qItem : List Char) : Inside (parse lib qItem) := by
  unfold parse
  dsimp only
  split
  · exact inside_error _
  · split
    · exact (forcedString_inside _).bind fun t => parseSides_inside lib t
    · exact parseSides_inside lib _

variable {lib item}

/-- What `listItemAdd` has done when it succeeds. -/
theorem listItemAdd_cases {item' : StringFilterItem} {s : List Char} (h : listItemAdd lib item s = .ok item') :
    wsStrip s ≠ [] ∧ ∃ v, valueGet lib (wsStrip s) (.fin 0) "" false = .ok v ∧ listItem item v = some item' := by
  unfold listItemAdd at h
  dsimp only at h
  split at h
  · cases h
  · rename_i hne
    cases hv : valueGet lib (wsStrip s) (.fin 0) "" false with
    | error e =>
      rw [hv] at h
      cases h
    | ok v =>
      rw [hv] at h
      simp only [bind, Except.bind] at h
      split at h
      · cases h
      · rename_i hadd
        cases h
        exact ⟨hne, v, rfl, hadd⟩

/-- A range is for `==` and `!=` only; the item gets one of the types of ranges. -/
theorem rangeParse_cases {item' : StringFilterItem} {s : List Char} (h : rangeParse lib item s = .ok item') :
    (item.op = .SfopEquals ∨ item.op = .SfopDiffers) ∧ item'.op = item.op ∧
      item'.compiledPattern = item.compiledPattern ∧ ∃ valueType, rangeType valueType = some item'.valueType := by
  unfold rangeParse at h
  split at h
  · cases h
  · rename_i hop
    have hequality : item.op = .SfopEquals ∨ item.op = .SfopDiffers := by
      by_contra hnone
      rw [not_or] at hnone
      exact hop hnone
    split at h
    · cases h
    · dsimp only at h
      split at h
      · cases h
      · rename_i fromString toString _ _
        cases hfrom : valueGet lib (wsStrip fromString) item.numberRangeFrom item.stringRangeFrom false with
        | error e =>
          rw [hfrom] at h
          cases h
        | ok vFrom =>
          rw [hfrom] at h
          simp only [bind, Except.bind] at h
          split at h
          · cases h
          · cases hto : valueGet lib (wsStrip toString) item.numberRangeTo item.stringRangeTo false with
            | error e =>
              rw [hto] at h
              cases h
            | ok vTo =>
              rw [hto] at h
              dsimp only at h
              split_ifs at h
              split at h
              · cases h
              · rename_i hrange
                cases h
                exact ⟨hequality, rfl, rfl, _, hrange⟩

variable (lib item)

/-- An item is parsed without the blanks around it. -/
theorem parse_wsStrip (qItem : List Char) : parse lib (wsStrip qItem) = parse lib qItem := by
  rw [parse, parse, wsStrip_wsStrip]

theorem parse_append_blank {b : List Char} (hb : Blanks b) (qItem : List Char) :
    parse lib (qItem ++ b) = parse lib qItem := by
  rw [parse, parse, wsStrip_append_right hb]

/-- The item compares with null. -/
def ComparesNull (item : StringFilterItem) : Prop :=
  (item.op = .SfopEquals ∨ item.op = .SfopDiffers) ∧ item.valueType = .SfvtNull

theorem mongoFilter_ok_iff : (∃ f, item.mongoFilter = .ok f) ↔ ¬item.ComparesNull := by
  unfold mongoFilter mongoEquals mongoDiffers ComparesNull
  cases hop : item.op <;> cases hvalue : item.valueType <;> simp [Except.map]

end StringFilterItem

namespace StringFilter

theorem mongoFilterPopulate_ok_iff (filters : List StringFilterItem) :
    (∃ mongoFilters, mongoFilterPopulate filters = .ok mongoFilters) ↔ ∀ item ∈ filters, ¬item.ComparesNull := by
  induction filters with
  | nil => exact iff_of_true ⟨[], rfl⟩ (by simp)
  | cons item filters ih =>
    rw [List.forall_mem_cons, ← ih, ← StringFilterItem.mongoFilter_ok_iff, mongoFilterPopulate]
    cases item.mongoFilter with
    | error e => simp [bind, Except.bind]
    | ok f =>
      cases mongoFilterPopulate filters with
      | error e => simp [bind, Except.bind]
      | ok mongoFilters => simp [bind, Except.bind, pure, Except.pure]

/-! ### The parts -/

/-- The parts between the `;` of a text. -/
def pieces (l : List Char) : List (List Char) := l.splitOn ';'

theorem pieces_nil : pieces [] = [[]] := List.splitOn_nil ';'

theorem pieces_semicolon (l : List Char) : pieces (';' :: l) = [] :: pieces l := by
  rw [pieces, List.splitOn_eq_splitOnP, List.splitOnP_cons_eq_if_modifyHead, if_pos (by simp)]
  rfl

theorem pieces_cons {c : Char} (hc : c ≠ ';') (l : List Char) :
    pieces (c :: l) = (c :: (pieces l).headI) :: (pieces l).tail := by
  have hcons : pieces (c :: l) = (pieces l).modifyHead (c :: ·) := by
    rw [pieces, List.splitOn_eq_splitOnP, List.splitOnP_cons_eq_if_modifyHead, if_neg (by simpa using hc)]
    rfl
  have hne : pieces l ≠ [] := List.splitOnP_ne_nil _ l
  rw [hcons]
  cases hpieces : pieces l with
  | nil => exact absurd hpieces hne
  | cons p ps => rfl

/-- The first part, and the parts behind the first `;`. -/
theorem pieces_eq (l : List Char) :
    pieces l = l.takeWhile (· ≠ ';') ::
      if l.dropWhile (· ≠ ';') = [] then [] else pieces ((l.dropWhile (· ≠ ';')).drop 1) := by
  induction l with
  | nil => rw [pieces_nil, List.takeWhile_nil, List.dropWhile_nil, if_pos rfl]
  | cons c l ih =>
    by_cases hc : c = ';'
    · rw [hc, pieces_semicolon, List.takeWhile_cons_of_neg (by simp), List.dropWhile_cons_of_neg (by simp),
        if_neg (List.cons_ne_nil _ _), List.drop_one, List.tail_cons]
    · rw [pieces_cons hc, ih, List.takeWhile_cons_of_pos (by simpa using hc),
        List.dropWhile_cons_of_pos (by simpa using hc)]
      rfl

/-- No part behind the first one is empty if and only if there are no two `;` in a row and none at the end. -/
theorem nil_not_mem_tail_iff (l : List Char) :
    [] ∉ (pieces l).tail ↔ l.getLast? ≠ some ';' ∧ strstr [';', ';'] l = none := by
  induction l with
  | nil => simp [pieces_nil, strstr]
  | cons c l ih =>
    by_cases hc : c = ';'
    · subst hc
      rw [pieces_semicolon, List.tail_cons, pieces_eq, List.mem_cons, not_or]
      have htail : (pieces l).tail =
          if l.dropWhile (· ≠ ';') = [] then [] else pieces ((l.dropWhile (· ≠ ';')).drop 1) := by
        rw [pieces_eq, List.tail_cons]
      rw [← htail, ih]
      cases l with
      | nil => simp
      | cons d l =>
        by_cases hd : d = ';'
        · subst hd
          simp [strstr]
        · simp [strstr, hd, Ne.symm hd]
    · rw [pieces_cons hc, List.tail_cons, ih, strstr, if_neg (by simp [Ne.symm hc])]
      cases l with
      | nil => simp [strstr, hc]
      | cons d l => simp

/-- Blanks at the end belong to the last part. -/
theorem pieces_append_blanks {b : List Char} (hb : Blanks b) (l : List Char) :
    ∃ ps p, pieces l = ps ++ [p] ∧ pieces (l ++ b) = ps ++ [p ++ b] := by
  induction l with
  | nil =>
    refine ⟨[], [], pieces_nil, ?_⟩
    have hall : ∀ c ∈ b, c ≠ ';' := by
      rintro c hc rfl
      simpa [isStripped] using hb _ hc
    have htake : b.takeWhile (· ≠ ';') = b := List.takeWhile_eq_self_iff.2 fun c hc => by simpa using hall c hc
    have hdrop : b.dropWhile (· ≠ ';') = [] := List.dropWhile_eq_nil_iff.2 fun c hc => by simpa using hall c hc
    rw [List.nil_append, pieces_eq, htake, if_pos hdrop]
    rfl
  | cons c l ih =>
    obtain ⟨ps, p, hl, hlb⟩ := ih
    rw [List.cons_append]
    by_cases hc : c = ';'
    · subst hc
      exact ⟨[] :: ps, p, by rw [pieces_semicolon, hl]; rfl, by rw [pieces_semicolon, hlb]; rfl⟩
    · rw [pieces_cons hc, pieces_cons hc, hl, hlb]
      cases ps with
      | nil => exact ⟨[], c :: p, rfl, rfl⟩
      | cons q ps => exact ⟨(c :: q) :: ps, p, rfl, rfl⟩

/-- `strtok_r` gives the parts that are not empty. -/
theorem strtok_r_spec (l : List Char) :
    match strtok_r l with
    | none => (pieces l).filter (· ≠ []) = []
    | some (token, saver) => (pieces l).filter (· ≠ []) = token :: (pieces saver).filter (· ≠ []) := by
  induction l with
  | nil => simp [strtok_r, pieces_nil]
  | cons c l ih =>
    by_cases hc : c = ';'
    · subst hc
      have hskip : strtok_r (';' :: l) = strtok_r l := by simp [strtok_r]
      rw [hskip, pieces_semicolon, List.filter_cons_of_neg (by simp)]
      exact ih
    · have htoken : strtok_r (c :: l) = some (c :: l.takeWhile (· ≠ ';'), (l.dropWhile (· ≠ ';')).drop 1) := by
        simp [strtok_r, hc]
      simp only [htoken]
      have hl := pieces_eq l
      rw [pieces_cons hc, hl, List.headI_cons, List.tail_cons, List.filter_cons_of_pos (by simp)]
      split
      · rename_i hdrop
        rw [hdrop]
        simp [pieces_nil]
      · rfl

/-! ### Acceptance -/

variable (lib : CLibrary)

/-- A part that gives an item. -/
def GivesItem (piece : List Char) (item : StringFilterItem) : Prop :=
  ¬Blanks piece ∧ StringFilterItem.parse lib piece = .ok item

/-- Every part is non-blank and accepted, and no item compares with null. -/
def PiecesAccepted (l : List Char) : Prop :=
  ∀ piece ∈ pieces l, ∃ item, GivesItem lib piece item ∧ ¬item.ComparesNull

variable {lib}

theorem givesItem_append_blanks {b : List Char} (hb : Blanks b) {piece : List Char} {item : StringFilterItem} :
    GivesItem lib (piece ++ b) item ↔ GivesItem lib piece item := by
  unfold GivesItem
  rw [StringFilterItem.parse_append_blank lib hb, ← wsStrip_eq_nil_iff, wsStrip_append_right hb, wsStrip_eq_nil_iff]

theorem GivesItem.ne_nil {piece : List Char} {item : StringFilterItem} (h : GivesItem lib piece item) : piece ≠ [] := by
  rintro rfl
  exact h.1 fun c hc => by cases hc

theorem parseLoop_of_none {str : List Char} (h : strtok_r str = none) (filters : List StringFilterItem) :
    parseLoop lib str filters = .ok filters := by
  rw [parseLoop.eq_def]
  split
  · rfl
  · rename_i h'
    rw [h] at h'
    cases h'

theorem parseLoop_of_some {str token saver : List Char} (h : strtok_r str = some (token, saver))
    (filters : List StringFilterItem) :
    parseLoop lib str filters =
      if wsStrip token = [] then .error (.error "empty q-item (only whitespace)")
      else
        match StringFilterItem.parse lib token with
        | .error e => .error e
        | .ok item => parseLoop lib saver (filters ++ [item]) := by
  rw [parseLoop.eq_def]
  split
  · rename_i h'
    rw [h] at h'
    cases h'
  · rename_i h'
    rw [h] at h'
    cases h'
    cases hparse : StringFilterItem.parse lib token with
    | error e => simp only [StringFilterItem.parse_wsStrip, hparse]
    | ok item => simp only [StringFilterItem.parse_wsStrip, hparse]

/-- The loop succeeds if and only if every part that is not empty gives an item. -/
theorem parseLoop_ok_iff (str : List Char) (filters result : List StringFilterItem) :
    parseLoop lib str filters = .ok result ↔
      ∃ items, result = filters ++ items ∧ List.Forall₂ (GivesItem lib) ((pieces str).filter (· ≠ [])) items := by
  induction str, filters using parseLoop.induct lib with
  | case1 str filters h =>
    have hspec := strtok_r_spec str
    rw [h] at hspec
    dsimp only at hspec
    rw [parseLoop_of_none h, hspec, Except.ok.injEq]
    constructor
    · intro heq
      exact ⟨[], by rw [heq, List.append_nil], .nil⟩
    · rintro ⟨items, rfl, hitems⟩
      cases hitems
      rw [List.append_nil]
  | case2 str filters token saver h s hs =>
    have hspec := strtok_r_spec str
    rw [h] at hspec
    dsimp only at hspec
    rw [parseLoop_of_some h, hspec, if_pos hs]
    refine iff_of_false (by simp) ?_
    rintro ⟨items, -, hitems⟩
    cases hitems with
    | cons hgives _ => exact hgives.1 (wsStrip_eq_nil_iff.1 hs)
  | case3 str filters token saver h s hs e he =>
    have hspec := strtok_r_spec str
    rw [h] at hspec
    dsimp only at hspec
    rw [StringFilterItem.parse_wsStrip] at he
    rw [parseLoop_of_some h, hspec, if_neg hs, he]
    refine iff_of_false (by simp) ?_
    rintro ⟨items, -, hitems⟩
    cases hitems with
    | cons hgives _ =>
      have hok := hgives.2
      rw [he] at hok
      cases hok
  | case4 str filters token saver h s hs item hitem hlt ih =>
    have hspec := strtok_r_spec str
    rw [h] at hspec
    dsimp only at hspec
    rw [StringFilterItem.parse_wsStrip] at hitem
    rw [parseLoop_of_some h, hspec, if_neg hs, hitem]
    dsimp only
    rw [ih]
    constructor
    · rintro ⟨items, rfl, hitems⟩
      refine ⟨item :: items, by rw [List.append_assoc]; rfl, .cons ⟨?_, hitem⟩ hitems⟩
      rwa [← wsStrip_eq_nil_iff]
    · rintro ⟨items, rfl, hitems⟩
      cases hitems with
      | cons hgives hrest =>
        rename_i item' items
        have heq : item = item' := Except.ok.inj (hitem.symm.trans hgives.2)
        refine ⟨items, ?_, hrest⟩
        rw [heq, List.append_assoc]
        rfl

theorem parseLoop_inside (str : List Char) (filters : List StringFilterItem) :
    Inside (parseLoop lib str filters) := by
  induction str, filters using parseLoop.induct lib with
  | case1 str filters h =>
    rw [parseLoop_of_none h]
    exact inside_ok _
  | case2 str filters token saver h s hs =>
    rw [parseLoop_of_some h, if_pos hs]
    exact inside_error _
  | case3 str filters token saver h s hs e he =>
    have hinside := StringFilterItem.parse_inside lib token
    rw [StringFilterItem.parse_wsStrip] at he
    rw [parseLoop_of_some h, if_neg hs, he]
    rw [he] at hinside
    exact fun heq => hinside (by cases heq; rfl)
  | case4 str filters token saver h s hs item hitem hlt ih =>
    rw [StringFilterItem.parse_wsStrip] at hitem
    rw [parseLoop_of_some h, if_neg hs, hitem]
    exact ih

/-! ### The string without the blanks at its end -/

/-- What is left of the buffer after `wsStrip`; a string of nothing but blanks is left as it is. -/
def strippedEnd (l : List Char) : List Char := l.takeWhile isStripped ++ wsStrip l

theorem strippedEnd_append (l : List Char) : ∃ b, Blanks b ∧ l = strippedEnd l ++ b := by
  obtain ⟨b, hb, hl⟩ := dropWhile_eq_wsStrip_append l
  refine ⟨b, hb, ?_⟩
  rw [strippedEnd, List.append_assoc, ← hl, List.takeWhile_append_dropWhile]

theorem strippedEnd_ne_nil {l : List Char} (h : l ≠ []) : strippedEnd l ≠ [] := by
  intro hnil
  obtain ⟨htake, hstrip⟩ := List.append_eq_nil_iff.1 hnil
  have hblanks := wsStrip_eq_nil_iff.1 hstrip
  rw [List.takeWhile_eq_self_iff.2 hblanks] at htake
  exact h htake

theorem lastChar_leading (l : List Char) :
    lastChar (l.takeWhile isStripped).reverse (wsStrip l) = (strippedEnd l).getLast? := by
  rw [lastChar, strippedEnd, List.getLast?_append, List.head?_reverse]

theorem forall₂_unique {l : List (List Char)} {items items' : List StringFilterItem}
    (h : List.Forall₂ (GivesItem lib) l items) (h' : List.Forall₂ (GivesItem lib) l items') : items = items' := by
  induction h generalizing items' with
  | nil =>
    cases h'
    rfl
  | cons hgives _ ih =>
    cases h' with
    | cons hgives' hrest =>
      have heq := Except.ok.inj (hgives.2.symm.trans hgives'.2)
      rw [heq, ih hrest]

theorem strstr_none_of_append {needle l b : List Char} (hne : needle ≠ []) (h : strstr needle (l ++ b) = none) :
    strstr needle l = none := by
  induction l with
  | nil => rw [strstr, if_neg hne]
  | cons c l ih =>
    rw [List.cons_append, strstr] at h
    rw [strstr]
    split at h
    · cases h
    · rename_i hbegins
      rw [Option.map_eq_none_iff] at h
      rw [ih h, if_neg]
      · rfl
      · intro hp
        refine hbegins ?_
        rw [List.isPrefixOf_iff_prefix] at hp ⊢
        exact hp.trans (List.prefix_append (c :: l) b)

/-- When the parser succeeds. -/
theorem parse_ok_iff {q : String} {filters : List StringFilterItem} {mongoFilters : List Bson.BSONObj} :
    parse lib q = .ok (filters, mongoFilters) ↔
      ((cString q).toList ≠ [] ∧ (cString q).toList ≠ [';'] ∧ strstr [';', ';'] (cString q).toList = none ∧
        (strippedEnd (cString q).toList).getLast? ≠ some ';') ∧
      List.Forall₂ (GivesItem lib) ((pieces (strippedEnd (cString q).toList)).filter (· ≠ [])) filters ∧
      mongoFilterPopulate filters = .ok mongoFilters := by
  have hloop := @parseLoop_ok_iff lib (strippedEnd (cString q).toList) []
  simp only [List.nil_append, exists_eq_left'] at hloop
  unfold parse
  dsimp only
  rw [lastChar_leading, ← strippedEnd]
  generalize (cString q).toList = text at *
  split
  · rename_i hempty
    refine iff_of_false (by simp) ?_
    rintro ⟨⟨hne, hne', -⟩, -⟩
    exact hempty.elim hne hne'
  · rename_i hempty
    rw [not_or] at hempty
    split
    · rename_i htwo
      refine iff_of_false (by simp) ?_
      rintro ⟨⟨-, -, hnone, -⟩, -⟩
      rw [hnone] at htwo
      cases htwo
    · rename_i htwo
      rw [Bool.not_eq_true, Option.isSome_eq_false_iff, Option.isNone_iff_eq_none] at htwo
      split
      · rename_i hlast
        rw [List.getLast?_eq_none_iff] at hlast
        exact absurd hlast (strippedEnd_ne_nil hempty.1)
      · rename_i c hlast
        rw [hlast]
        split
        · rename_i hc
          refine iff_of_false (by simp) ?_
          rintro ⟨⟨-, -, -, hne⟩, -⟩
          exact hne (by rw [hc])
        · rename_i hc
          have htests : text ≠ [] ∧ text ≠ [';'] ∧ strstr [';', ';'] text = none ∧ some c ≠ some ';' :=
            ⟨hempty.1, hempty.2, htwo, fun h => hc (Option.some.inj h)⟩
          split
          · rename_i e he
            refine iff_of_false (by simp) ?_
            rintro ⟨-, hitems, -⟩
            rw [(hloop filters).2 hitems] at he
            cases he
          · rename_i items hitems
            rw [hloop items] at hitems
            split
            · rename_i e he
              refine iff_of_false (by simp) ?_
              rintro ⟨-, hitems', hmongo⟩
              have heq : items = filters := forall₂_unique hitems hitems'
              rw [heq, hmongo] at he
              cases he
            · rename_i mongoFilters' hmongo
              rw [Except.ok.injEq, Prod.mk.injEq]
              constructor
              · rintro ⟨rfl, rfl⟩
                exact ⟨htests, hitems, hmongo⟩
              · rintro ⟨-, hitems', hmongo'⟩
                have heq : items = filters := forall₂_unique hitems hitems'
                rw [heq, hmongo'] at hmongo
                exact ⟨heq, (Except.ok.inj hmongo).symm⟩

theorem parse_inside (lib : CLibrary) (q : String) : Inside (parse lib q) := by
  unfold parse
  dsimp only
  rw [lastChar_leading, ← strippedEnd]
  split
  · exact inside_error _
  · rename_i hempty
    rw [not_or] at hempty
    split
    · exact inside_error _
    · split
      · rename_i hlast
        rw [List.getLast?_eq_none_iff] at hlast
        exact absurd hlast (strippedEnd_ne_nil hempty.1)
      · split
        · exact inside_error _
        · have hloop := @parseLoop_inside lib (strippedEnd (cString q).toList) []
          split
          · rename_i e he
            rw [he] at hloop
            exact fun h => hloop (by cases h; rfl)
          · split
            · exact inside_error _
            · exact inside_ok _

/-! ### A `;` at the beginning -/

/-- A text without one `;` at its beginning. -/
def skipFirst (l : List Char) : List Char := if l.head? = some ';' then l.tail else l

theorem skipFirst_append {l : List Char} (h : l ≠ []) (b : List Char) : skipFirst (l ++ b) = skipFirst l ++ b := by
  cases l with
  | nil => exact absurd rfl h
  | cons c l =>
    unfold skipFirst
    by_cases hc : c = ';' <;> simp [hc]

theorem pieces_skipFirst {l : List Char} (h : l ≠ []) :
    (pieces l).filter (· ≠ []) = (pieces (skipFirst l)).filter (· ≠ []) ∧
      ([] ∉ (pieces l).tail ↔ [] ∉ pieces (skipFirst l)) := by
  cases l with
  | nil => exact absurd rfl h
  | cons c l =>
    by_cases hc : c = ';'
    · have hskip : skipFirst (c :: l) = l := by simp [skipFirst, hc]
      rw [hskip, hc, pieces_semicolon]
      exact ⟨List.filter_cons_of_neg (by simp), Iff.rfl⟩
    · have hskip : skipFirst (c :: l) = c :: l := by simp [skipFirst, hc]
      rw [hskip, pieces_cons hc]
      exact ⟨rfl, by simp⟩

/-- Blanks at the end change no item. -/
theorem forall₂_pieces_append {b : List Char} (hb : Blanks b) (l : List Char) (items : List StringFilterItem) :
    List.Forall₂ (GivesItem lib) (pieces (l ++ b)) items ↔ List.Forall₂ (GivesItem lib) (pieces l) items := by
  obtain ⟨ps, p, hl, hlb⟩ := pieces_append_blanks hb l
  rw [hl, hlb]
  clear hl hlb
  induction ps generalizing items with
  | nil => cases items <;> simp [givesItem_append_blanks hb]
  | cons q ps ih => cases items <;> simp [ih]

theorem forall₂_ne_nil {l : List (List Char)} {items : List StringFilterItem}
    (h : List.Forall₂ (GivesItem lib) l items) : [] ∉ l := by
  induction h with
  | nil => simp
  | cons hgives _ ih =>
    rw [List.mem_cons, not_or]
    exact ⟨hgives.ne_nil.symm, ih⟩

theorem filter_pieces {l : List (List Char)} (h : [] ∉ l) : l.filter (· ≠ []) = l :=
  List.filter_eq_self.2 fun p hp => by simpa using fun hnil : p = [] => h (hnil ▸ hp)

theorem piecesAccepted_iff (l : List Char) :
    PiecesAccepted lib l ↔ ∃ items, List.Forall₂ (GivesItem lib) (pieces l) items ∧ ∀ item ∈ items, ¬item.ComparesNull := by
  unfold PiecesAccepted
  induction pieces l with
  | nil => exact iff_of_true (by simp) ⟨[], .nil, by simp⟩
  | cons p ps ih =>
    rw [List.forall_mem_cons, ih]
    constructor
    · rintro ⟨⟨item, hgives, hnull⟩, items, hitems, hnulls⟩
      exact ⟨item :: items, .cons hgives hitems, List.forall_mem_cons.2 ⟨hnull, hnulls⟩⟩
    · rintro ⟨items, hitems, hnulls⟩
      cases hitems with
      | cons hgives hrest =>
        rw [List.forall_mem_cons] at hnulls
        exact ⟨⟨_, hgives, hnulls.1⟩, _, hrest, hnulls.2⟩

/-- The parts that are parsed are those of the string without one `;` at its beginning. -/
theorem parse_ok_skipFirst_iff {q : String} {filters : List StringFilterItem} {mongoFilters : List Bson.BSONObj} :
    parse lib q = .ok (filters, mongoFilters) ↔
      List.Forall₂ (GivesItem lib) (pieces (skipFirst (cString q).toList)) filters ∧
        mongoFilterPopulate filters = .ok mongoFilters := by
  rw [parse_ok_iff]
  generalize (cString q).toList = text
  obtain ⟨b, hb, htext⟩ := strippedEnd_append text
  constructor
  · rintro ⟨⟨hne, -, htwo, hlast⟩, hitems, hmongo⟩
    have hstr := strippedEnd_ne_nil hne
    obtain ⟨hfilter, htail⟩ := pieces_skipFirst hstr
    rw [htext] at htwo
    have htwo' := strstr_none_of_append (by simp) htwo
    have hbare := htail.1 ((nil_not_mem_tail_iff _).2 ⟨hlast, htwo'⟩)
    rw [hfilter, filter_pieces hbare] at hitems
    rw [htext, skipFirst_append hstr, forall₂_pieces_append hb]
    exact ⟨hitems, hmongo⟩
  · rintro ⟨hitems, hmongo⟩
    have hbare := forall₂_ne_nil hitems
    have hne : text ≠ [] := by
      rintro rfl
      exact hbare (by simp [skipFirst, pieces_nil])
    have hne' : text ≠ [';'] := by
      rintro rfl
      exact hbare (by simp [skipFirst, pieces_nil])
    have htwo := ((nil_not_mem_tail_iff text).1 ((pieces_skipFirst hne).2.2 hbare)).2
    have hstr := strippedEnd_ne_nil hne
    obtain ⟨hfilter, htail⟩ := pieces_skipFirst hstr
    rw [htext, skipFirst_append hstr, forall₂_pieces_append hb] at hitems
    have hbare' := forall₂_ne_nil hitems
    have hlast := ((nil_not_mem_tail_iff _).1 (htail.2 hbare')).1
    refine ⟨⟨hne, hne', htwo, hlast⟩, ?_, hmongo⟩
    rw [hfilter, filter_pieces hbare']
    exact hitems

theorem accepts_iff (lib : CLibrary) (q : String) :
    (∃ result, parse lib q = .ok result) ↔ PiecesAccepted lib (skipFirst (cString q).toList) := by
  rw [piecesAccepted_iff]
  constructor
  · rintro ⟨⟨filters, mongoFilters⟩, h⟩
    obtain ⟨hitems, hmongo⟩ := parse_ok_skipFirst_iff.1 h
    exact ⟨filters, hitems, (mongoFilterPopulate_ok_iff filters).1 ⟨mongoFilters, hmongo⟩⟩
  · rintro ⟨filters, hitems, hnull⟩
    obtain ⟨mongoFilters, hmongo⟩ := (mongoFilterPopulate_ok_iff filters).2 hnull
    exact ⟨(filters, mongoFilters), parse_ok_skipFirst_iff.2 ⟨hitems, hmongo⟩⟩

/-- The string is accepted if every part is, there is an item for each part, and nothing outside is read. -/
def ParsedByPieces (lib : CLibrary) (q : String) : Prop :=
  ((∃ result, parse lib q = .ok result) ↔ PiecesAccepted lib (cString q).toList) ∧
  (∀ result, parse lib q = .ok result → result.1.length = (pieces (cString q).toList).length) ∧ Inside (parse lib q)

/-- A library without dates. -/
def plainLibrary : CLibrary where
  strtod := strtodDigits
  strptime := fun _ => none
  getDouble := fun n => .fin n
  regcomp := fun _ => true

end StringFilter

end OrionBroker
