import OrionBroker.FilterPieces

/-!
# Forced strings in a filter (`StringFilter.cpp`)

Quotes around a value say that it is a string, but the operator, a range and a list are looked for in the whole item, and
the loop over a list takes the first quote away before the type of the element is guessed.  So an element of a list that
looks like a number, a date, a boolean or null is one, and if blanks stand in front of its quote, it is a blank that is
taken away and the element is seen as a string without its second quote.  What is kept of forced strings is said in
`parse_forced_iff`.
-/

namespace OrionBroker

open Bson

namespace StringFilterItem

/-- A text in single quotes. -/
def forced (x : List Char) : List Char := '\'' :: (x ++ ['\''])

/-- One more forced string in a list, with the blanks around the comma in front of it. -/
structure MoreForced where
  before : List Char
  after : List Char
  text : List Char
  blanks : Blanks before ∧ Blanks after

/-- The forced strings with the commas between them. -/
def moreText (more : List MoreForced) : List Char := more.flatMap fun m => m.before ++ ',' :: (m.after ++ forced m.text)

/-- The right side of an item: one or more forced strings. -/
def forcedText (x : List Char) (more : List MoreForced) : List Char := forced x ++ moreText more

/-- The two operators that lists are valid for, as they are written. -/
inductive EqualityOp where
  | equals
  | differs
deriving DecidableEq

def EqualityOp.text : EqualityOp → List Char
  | .equals => ['=', '=']
  | .differs => ['!', '=']

def EqualityOp.op : EqualityOp → StringFilterOp
  | .equals => .SfopEquals
  | .differs => .SfopDiffers

/-- The left side of an item is an accepted name. -/
structure AcceptedLeft (lhs : List Char) : Prop where
  nonempty : wsStrip lhs ≠ []
  allowed : forbiddenChars (String.ofList (wsStrip lhs)) [] = false

/-- What may stand between the quotes. -/
structure ForcedTexts (x : List Char) (more : List MoreForced) : Prop where
  first : '\'' ∉ x ∧ '\x00' ∉ x
  more : ∀ m ∈ more, '\'' ∉ m.text ∧ '\x00' ∉ m.text

/-- The item is parsed as one string, or as the list of the strings. -/
def ParsedForced (lib : CLibrary) (lhs : List Char) (op : EqualityOp) (x : List Char) (more : List MoreForced) : Prop :=
  ∃ item, parse lib (lhs ++ op.text ++ forcedText x more) = .ok item ∧ item.op = op.op ∧
    (more = [] → item.valueType = .SfvtString ∧ item.stringValue = String.ofList x) ∧
    (more ≠ [] → item.valueType = .SfvtStringList ∧
      item.stringList = String.ofList x :: more.map fun m => String.ofList m.text)

/-- The text is a string without its quotes as well, and has no blanks at its ends. -/
structure PlainString (lib : CLibrary) (x : List Char) : Prop where
  nonempty : x ≠ []
  stripped : wsStrip x = x
  notNumber : str2double lib.strtod x = none
  notDate : lib.parse8601Time (String.ofList x) = -1
  notWord : x ≠ "true".toList ∧ x ≠ "false".toList ∧ x ≠ "null".toList

/-- The forced strings that are kept: none contains an operator that is found before the one of the item, none contains
the dots of a range, one alone contains no comma; and in a list, each is a plain string if no blanks stand in front of its
quote, and empty otherwise. -/
structure ForcedKept (lib : CLibrary) (op : EqualityOp) (x : List Char) (more : List MoreForced) : Prop where
  operator : op = .differs → ∀ t ∈ x :: more.map MoreForced.text, ¬['=', '='] <:+: t ∧ ¬['~', '='] <:+: t
  range : ∀ t ∈ x :: more.map MoreForced.text, ¬['.', '.'] <:+: t
  single : more = [] → ',' ∉ x
  first : more ≠ [] → PlainString lib x
  close : ∀ m ∈ more, m.after = [] → PlainString lib m.text
  apart : ∀ m ∈ more, m.after ≠ [] → m.text = []

/-! ### The loop over a list -/

section List

variable (lib : CLibrary)

theorem blanks_nil : Blanks [] := fun _ hc => absurd hc List.not_mem_nil

theorem not_blank_quote {b : List Char} (h : Blanks b) : '\'' ∉ b := fun hmem => absurd (h _ hmem) (by decide)

theorem not_blank_comma {b : List Char} (h : Blanks b) : ',' ∉ b := fun hmem => absurd (h _ hmem) (by decide)

theorem not_blank_zero {b : List Char} (h : Blanks b) : '\x00' ∉ b := fun hmem => absurd (h _ hmem) (by decide)

/-- Between quotes all characters but a quote are passed over. -/
theorem listLoop_inString (item : StringFilterItem) (pending : List Char) {x : List Char} (h : '\'' ∉ x) (s : List Char) :
    listLoop lib item pending true (x ++ s) = listLoop lib item (pending ++ x) true s := by
  induction x generalizing pending with
  | nil => rw [List.nil_append, List.append_nil]
  | cons c x ih =>
    rw [List.mem_cons, not_or] at h
    rw [List.cons_append, listLoop, if_neg (Ne.symm h.1), if_neg (by simp), ih _ h.2, List.append_assoc]
    rfl

theorem listLoop_blanks (item : StringFilterItem) (pending : List Char) {b : List Char} (h : Blanks b) (s : List Char) :
    listLoop lib item pending false (b ++ s) = listLoop lib item (pending ++ b) false s := by
  have hquote := not_blank_quote h
  have hcomma := not_blank_comma h
  induction b generalizing pending with
  | nil => rw [List.nil_append, List.append_nil]
  | cons c b ih =>
    rw [List.mem_cons, not_or] at hquote hcomma
    rw [List.cons_append, listLoop, if_neg (Ne.symm hquote.1), if_neg (fun hc => hcomma.1 hc.1.symm),
      ih _ (fun d hd => h d (List.mem_cons_of_mem _ hd)) hquote.2 hcomma.2, List.append_assoc]
    rfl

/-- What is left of the blanks in front of a forced string and of its first quote: one character is taken away. -/
def elementText (after x : List Char) : List Char := (after ++ ['\'']).drop 1 ++ x

theorem listLoop_forced (item : StringFilterItem) (after : List Char) {x : List Char} (h : '\'' ∉ x) (s : List Char) :
    listLoop lib item after false (forced x ++ s) =
      listLoop lib item (elementText after x ++ ['\x00']) false s := by
  rw [forced, List.cons_append, List.append_assoc, listLoop, if_pos rfl, if_pos rfl, listLoop_inString lib _ _ h,
    List.singleton_append, listLoop, if_pos rfl, if_neg (by simp), elementText]

/-- The text of an element ends at the zero that was written over its second quote. -/
theorem upToZero_elementText {after x : List Char} (hafter : Blanks after) (h : '\x00' ∉ x) (b : List Char) :
    upToZero (elementText after x ++ ['\x00'] ++ b) = elementText after x := by
  have hzero : ∀ c ∈ elementText after x, (decide (c ≠ '\x00')) = true := by
    intro c hc
    rw [decide_eq_true_eq]
    rintro rfl
    rcases List.mem_append.1 hc with hmem | hmem
    · rcases List.mem_append.1 (List.mem_of_mem_drop hmem) with hblank | hquote
      · exact not_blank_zero hafter hblank
      · exact absurd (List.mem_singleton.1 hquote) (by decide)
    · exact h hmem
  rw [upToZero, List.append_assoc, List.takeWhile_append_of_pos hzero]
  simp

/-- The elements are added one after the other. -/
theorem listLoop_elements (item : StringFilterItem) {after x : List Char} {more : List MoreForced} (hafter : Blanks after)
    (hx : '\'' ∉ x ∧ '\x00' ∉ x) (hmore : ∀ m ∈ more, '\'' ∉ m.text ∧ '\x00' ∉ m.text) :
    listLoop lib item after false (forced x ++ moreText more) =
      (elementText after x :: more.map fun m => elementText m.after m.text).foldlM (listItemAdd lib) item := by
  induction more generalizing item after x with
  | nil =>
    rw [moreText, List.flatMap_nil, listLoop_forced lib item after hx.1, listLoop, if_neg (by simp)]
    have htext := upToZero_elementText hafter hx.2 []
    rw [List.append_nil] at htext
    rw [htext]
    simp
  | cons m more ih =>
    have hm := hmore m (List.mem_cons_self ..)
    have htext : moreText (m :: more) = m.before ++ ',' :: (m.after ++ (forced m.text ++ moreText more)) := by
      simp [moreText, List.append_assoc]
    rw [htext, listLoop_forced lib item after hx.1, listLoop_blanks lib _ _ m.blanks.1, listLoop, if_neg (by simp),
      if_pos ⟨rfl, rfl⟩, upToZero_elementText hafter hx.2, List.foldlM_cons]
    cases listItemAdd lib item (elementText after x) with
    | error e => rfl
    | ok item =>
      have hne : m.after ++ (forced m.text ++ moreText more) ≠ [] := by simp [forced]
      show (if m.after ++ (forced m.text ++ moreText more) = [] then _ else _) = _
      rw [if_neg hne, listLoop_blanks lib item [] m.blanks.2, List.nil_append,
        ih item m.blanks.2 hm fun m' hm' => hmore m' (List.mem_cons_of_mem _ hm')]
      rfl

/-- An element of a list is seen as the string. -/
def Gives (text : List Char) (y : String) : Prop :=
  wsStrip text ≠ [] ∧ ∃ v, valueGet lib (wsStrip text) (.fin 0) "" false = .ok v ∧ v.valueType = .SfvtString ∧ v.string = y

/-- The list has no elements but strings. -/
def StringsOnly (item : StringFilterItem) : Prop :=
  item.numberList = [] ∧ (item.stringList = [] ∨ item.valueType = .SfvtStringList)

/-- The list has numbers or dates. -/
def NumbersOnly (item : StringFilterItem) : Prop :=
  item.numberList ≠ [] ∧ item.valueType ≠ .SfvtStringList ∧ item.valueType ≠ .SfvtString

/-- The item with more strings in its list. -/
def withStrings (item : StringFilterItem) (ys : List String) : StringFilterItem :=
  { item with valueType := .SfvtStringList, stringList := item.stringList ++ ys }

theorem withStrings_withStrings (item : StringFilterItem) (ys zs : List String) :
    (item.withStrings ys).withStrings zs = item.withStrings (ys ++ zs) := by
  simp [withStrings]

theorem StringsOnly.withStrings {item : StringFilterItem} (h : StringsOnly item) (ys : List String) :
    StringsOnly (item.withStrings ys) := ⟨h.1, .inr rfl⟩

variable {lib}

theorem listItemAdd_of_gives {item : StringFilterItem} (hitem : StringsOnly item) {text : List Char} {y : String}
    (h : Gives lib text y) :
    listItemAdd lib item text = .ok (item.withStrings [y]) := by
  obtain ⟨hne, v, hv, htype, rfl⟩ := h
  have hadd : listItem item v = some (item.withStrings [v.string]) := by
    unfold listItem
    by_cases hempty : item.stringList = []
    · rw [if_pos ⟨by rw [hempty]; rfl, by rw [hitem.1]; rfl⟩]
      simp only [htype]
      rfl
    · have hlist := hitem.2.resolve_left hempty
      rw [if_neg fun h => hempty (List.length_eq_zero_iff.1 h.1), if_pos ⟨htype, hlist⟩, withStrings, ← hlist]
  unfold listItemAdd
  dsimp only
  rw [if_neg hne, hv]
  simp only [bind, Except.bind, hadd]

/-- An element that is added to strings is a string, or the list becomes one of numbers or dates. -/
theorem gives_of_listItemAdd {item item' : StringFilterItem} (hitem : StringsOnly item) {text : List Char}
    (h : listItemAdd lib item text = .ok item') : (∃ y, Gives lib text y) ∨ NumbersOnly item' := by
  obtain ⟨hne, v, hv, hadd⟩ := listItemAdd_cases h
  by_cases htype : v.valueType = .SfvtString
  · exact .inl ⟨v.string, hne, v, hv, htype, rfl⟩
  · right
    unfold listItem at hadd
    split at hadd
    · split at hadd
      · rename_i hstring
        exact absurd hstring htype
      · cases hadd
        exact ⟨by simp, by simp⟩
      · cases hadd
        exact ⟨by simp, by simp⟩
      · cases hadd
    · rename_i hnonempty
      have hlist : item.valueType = .SfvtStringList := by
        refine hitem.2.resolve_left fun hempty => hnonempty ⟨by rw [hempty]; rfl, by rw [hitem.1]; rfl⟩
      simp [htype, hlist] at hadd

/-- A list of numbers or dates stays one. -/
theorem numbersOnly_of_listItemAdd {item item' : StringFilterItem} (hitem : NumbersOnly item) {text : List Char}
    (h : listItemAdd lib item text = .ok item') : NumbersOnly item' := by
  obtain ⟨-, v, -, hadd⟩ := listItemAdd_cases h
  unfold listItem at hadd
  rw [if_neg fun hempty => hitem.1 (List.length_eq_zero_iff.1 hempty.2), if_neg fun hstring => hitem.2.1 hstring.2] at hadd
  split at hadd
  · cases hadd
    exact ⟨by simp, hitem.2⟩
  · split at hadd
    · cases hadd
      exact ⟨by simp, hitem.2⟩
    · cases hadd

theorem foldlM_of_numbersOnly {item item' : StringFilterItem} (hitem : NumbersOnly item) {texts : List (List Char)}
    (h : texts.foldlM (listItemAdd lib) item = .ok item') : NumbersOnly item' := by
  induction texts generalizing item with
  | nil =>
    cases h
    exact hitem
  | cons text texts ih =>
    rw [List.foldlM_cons] at h
    cases hadd : listItemAdd lib item text with
    | error e =>
      rw [hadd] at h
      cases h
    | ok added =>
      rw [hadd] at h
      exact ih (numbersOnly_of_listItemAdd hitem hadd) h

/-- All elements that are seen as strings are added to the list. -/
theorem foldlM_of_gives {item : StringFilterItem} (hitem : StringsOnly item) {texts : List (List Char)} {ys : List String}
    (h : List.Forall₂ (Gives lib) texts ys) (hne : texts ≠ []) :
    texts.foldlM (listItemAdd lib) item = .ok (item.withStrings ys) := by
  induction h generalizing item with
  | nil => exact absurd rfl hne
  | @cons text y texts ys hy hys ih =>
    rw [List.foldlM_cons, listItemAdd_of_gives hitem hy]
    show texts.foldlM (listItemAdd lib) (item.withStrings [y]) = _
    cases hys with
    | nil => rfl
    | cons hnext hrest =>
      rw [ih (hitem.withStrings [y]) (by simp), withStrings_withStrings]
      rfl

/-- A list of strings at the end has the elements as they are seen. -/
theorem gives_of_foldlM {item item' : StringFilterItem} (hitem : StringsOnly item) {texts : List (List Char)}
    (h : texts.foldlM (listItemAdd lib) item = .ok item') (htype : item'.valueType = .SfvtStringList) :
    ∃ ys, List.Forall₂ (Gives lib) texts ys ∧ item'.stringList = item.stringList ++ ys := by
  induction texts generalizing item with
  | nil =>
    cases h
    exact ⟨[], .nil, (List.append_nil _).symm⟩
  | cons text texts ih =>
    rw [List.foldlM_cons] at h
    cases hadd : listItemAdd lib item text with
    | error e =>
      rw [hadd] at h
      cases h
    | ok added =>
      rw [hadd] at h
      rcases gives_of_listItemAdd hitem hadd with ⟨y, hy⟩ | hnumbers
      · rw [listItemAdd_of_gives hitem hy] at hadd
        cases hadd
        replace h : texts.foldlM (listItemAdd lib) (item.withStrings [y]) = .ok item' := h
        obtain ⟨ys, hys, hlist⟩ := ih (hitem.withStrings [y]) h
        refine ⟨y :: ys, .cons hy hys, ?_⟩
        rw [hlist, withStrings, List.append_assoc]
        rfl
      · exact absurd htype (foldlM_of_numbersOnly hnumbers h).2.1

/-! ### One element -/

theorem Gives.unique {text : List Char} {y y' : String} (h : Gives lib text y) (h' : Gives lib text y') : y = y' := by
  obtain ⟨-, v, hv, -, rfl⟩ := h
  obtain ⟨-, v', hv', -, rfl⟩ := h'
  rw [hv] at hv'
  cases hv'
  rfl

/-- A text without quotes is seen as the string that it is if and only if it is a plain string. -/
theorem gives_self_iff {x : List Char} (h : '\'' ∉ x) : Gives lib x (String.ofList x) ↔ PlainString lib x := by
  have hhead : (wsStrip x).head? ≠ some '\'' := by
    intro hquote
    obtain ⟨-, b, b', -, -, hx⟩ := wsStrip_decompose x
    refine h ?_
    rw [hx]
    simp [List.mem_of_head? hquote]
  constructor
  · rintro ⟨hne, v, hv, htype, hstring⟩
    unfold valueGet at hv
    rw [if_neg hhead] at hv
    cases hnumber : str2double lib.strtod (wsStrip x) with
    | some d =>
      simp only [hnumber, Except.ok.injEq] at hv
      subst hv
      cases htype
    | none =>
      simp only [hnumber] at hv
      split_ifs at hv with hdate htrue hfalse hnull
      · cases hv
        cases htype
      · cases hv
        cases htype
      · cases hv
        cases htype
      · cases hv
        cases htype
      · cases hv
        have hstripped : wsStrip x = x := String.ofList_injective hstring
        rw [hstripped] at hnumber hdate htrue hfalse hnull hne
        exact ⟨hne, hstripped, hnumber, not_not.1 hdate, htrue, hfalse, hnull⟩
  · rintro ⟨hne, hstripped, hnumber, hdate, htrue, hfalse, hnull⟩
    refine ⟨by rwa [hstripped], ?_⟩
    unfold valueGet
    rw [if_neg hhead, hstripped]
    simp only [hnumber]
    rw [if_neg (not_not.2 hdate), if_neg htrue, if_neg hfalse, if_neg hnull]
    exact ⟨_, rfl, rfl, rfl⟩

/-- A text behind a quote that was not taken away is seen as the string that it is if and only if it is empty. -/
theorem gives_quote_iff {b x : List Char} (hb : Blanks b) (h : '\'' ∉ x) :
    Gives lib (b ++ '\'' :: x) (String.ofList x) ↔ x = [] := by
  obtain ⟨htrimmed, before, after, hbefore, hafter, hx⟩ := wsStrip_decompose x
  rw [Gives, wsStrip_append_left hb]
  by_cases hblank : wsStrip x = []
  · have hblanks : Blanks x := wsStrip_eq_nil_iff.1 hblank
    have hstrip : wsStrip ('\'' :: x) = ['\''] := by
      have happend := wsStrip_append_right hblanks ['\'']
      rw [List.singleton_append] at happend
      rw [happend]
      decide
    have hget : valueGet lib ['\''] (.fin 0) "" false =
        .ok { valueType := .SfvtString, double := .fin 0, string := String.ofList [], bool := false } := by
      unfold valueGet
      rw [if_pos (show (['\''] : List Char).head? = some '\'' from rfl)]
      rfl
    rw [hstrip, hget]
    constructor
    · rintro ⟨-, v, hv, -, hstring⟩
      cases hv
      exact (String.ofList_injective hstring).symm
    · rintro rfl
      exact ⟨by simp, _, rfl, rfl, rfl⟩
  · -- the last character is not a quote
    have hkeep : before ++ wsStrip x ≠ [] := by simp [hblank]
    have hlast : ∀ c ∈ (before ++ wsStrip x).getLast?, isStripped c = false ∧ c ≠ '\'' := by
      intro c hc
      rw [List.getLast?_append_of_ne_nil _ hblank] at hc
      refine ⟨htrimmed.2 c hc, ?_⟩
      rintro rfl
      refine h ?_
      rw [hx]
      simp [List.mem_of_getLast? hc]
    have hstrip : wsStrip ('\'' :: x) = '\'' :: (before ++ wsStrip x) := by
      have hsplit : '\'' :: x = ('\'' :: (before ++ wsStrip x)) ++ after := by
        rw [List.cons_append, ← hx]
      rw [hsplit, wsStrip_append_right hafter]
      refine wsStrip_of_trimmed ⟨?_, ?_⟩
      · intro c hc
        cases hc
        rfl
      · intro c hc
        rw [← List.singleton_append, List.getLast?_append_of_ne_nil _ hkeep] at hc
        exact (hlast c hc).1
    refine iff_of_false ?_ ?_
    · rintro ⟨-, v, hv, -⟩
      rw [hstrip] at hv
      obtain ⟨c, hc⟩ := Option.isSome_iff_exists.1 (List.getLast?_isSome.2 hkeep)
      have hfail : forcedString (before ++ wsStrip x) = .error (.error "non-terminated forced string") := by
        unfold forcedString lastChar
        rw [hc, Option.some_or]
        show (if c ≠ '\'' then _ else _) = _
        rw [if_pos (hlast c hc).2]
      unfold valueGet at hv
      rw [if_pos List.head?_cons, List.tail_cons, hfail] at hv
      cases hv
    · rintro rfl
      exact hblank rfl

/-- An element of a list is seen as the string between its quotes if and only if that is a plain string, or if blanks
stand in front of it and it is empty. -/
theorem gives_elementText_iff {after x : List Char} (hafter : Blanks after) (h : '\'' ∉ x) :
    Gives lib (elementText after x) (String.ofList x) ↔
      (after = [] → PlainString lib x) ∧ (after ≠ [] → x = []) := by
  cases after with
  | nil =>
    have htext : elementText [] x = x := rfl
    rw [htext, gives_self_iff h]
    simp
  | cons c b =>
    have htext : elementText (c :: b) x = b ++ '\'' :: x := by simp [elementText]
    rw [htext, gives_quote_iff (fun d hd => hafter d (List.mem_cons_of_mem _ hd)) h]
    simp

end List

/-! ### What is found in the whole text -/

theorem strstr_isSome_iff {needle l : List Char} : (strstr needle l).isSome = true ↔ needle <:+: l := by
  induction l with
  | nil =>
    rw [strstr, List.infix_nil]
    split <;> simp_all
  | cons c l ih =>
    rw [strstr, List.infix_cons_iff, ← List.isPrefixOf_iff_prefix, ← ih]
    by_cases hbegins : needle.isPrefixOf (c :: l) = true
    · simp [hbegins]
    · simp [hbegins]

/-- An operator with `=` is found where the first `=` is. -/
theorem strstr_operator {a : Char} {l : List Char} (h : '=' ∉ l) (r : List Char) :
    strstr [a, '='] (l ++ a :: '=' :: r) = some (l, r) := by
  induction l with
  | nil => simp [strstr]
  | cons c l ih =>
    rw [List.mem_cons, not_or] at h
    have hnot : ¬[a, '='].isPrefixOf (c :: (l ++ a :: '=' :: r)) = true := by
      cases l with
      | nil =>
        rintro hbegins
        simp only [List.nil_append, List.isPrefixOf, Bool.and_eq_true, beq_iff_eq] at hbegins
        exact h.1 (hbegins.2.1.trans (hbegins.1.symm ▸ rfl) |>.trans hbegins.1)
      | cons d l =>
        rintro hbegins
        simp only [List.cons_append, List.isPrefixOf, Bool.and_eq_true, beq_iff_eq] at hbegins
        exact h.2 (hbegins.2.1 ▸ List.mem_cons_self)
    rw [List.cons_append, strstr, if_neg hnot, ih h.2]
    rfl

section Pair

variable {a b : Char}

theorem pair_infix_cons_iff {c : Char} (hc : c ≠ a) (l : List Char) : [a, b] <:+: c :: l ↔ [a, b] <:+: l := by
  rw [List.infix_cons_iff, List.cons_prefix_cons]
  simp [Ne.symm hc]

theorem pair_infix_append_iff {l : List Char} (hl : a ∉ l) (r : List Char) : [a, b] <:+: l ++ r ↔ [a, b] <:+: r := by
  induction l with
  | nil => rfl
  | cons c l ih =>
    rw [List.mem_cons, not_or] at hl
    rw [List.cons_append, pair_infix_cons_iff (Ne.symm hl.1), ih hl.2]

/-- A pair of characters is on one side of a third one. -/
theorem pair_infix_separated_iff {c : Char} (hca : c ≠ a) (hcb : c ≠ b) (l r : List Char) :
    [a, b] <:+: l ++ c :: r ↔ [a, b] <:+: l ∨ [a, b] <:+: r := by
  induction l with
  | nil =>
    rw [List.nil_append, pair_infix_cons_iff hca, List.infix_nil]
    simp
  | cons d l ih =>
    have hbegins : [a, b] <+: d :: (l ++ c :: r) ↔ [a, b] <+: d :: l := by
      cases l with
      | nil => simp [Ne.symm hcb]
      | cons e l => simp
    rw [List.cons_append, List.infix_cons_iff, List.infix_cons_iff, ih, hbegins, or_assoc]

/-- A pair of characters that are neither quotes nor commas nor blanks is in one of the strings. -/
theorem pair_infix_forcedText_iff (ha : a ≠ '\'' ∧ a ≠ ',' ∧ isStripped a = false) (hb : b ≠ '\'') (x : List Char)
    (more : List MoreForced) :
    [a, b] <:+: forcedText x more ↔ ∃ t ∈ x :: more.map MoreForced.text, [a, b] <:+: t := by
  have hblank : ∀ {l : List Char}, Blanks l → a ∉ l := by
    intro l hl hmem
    rw [hl a hmem] at ha
    exact absurd ha.2.2 (by simp)
  induction more generalizing x with
  | nil =>
    have htext : forcedText x [] = '\'' :: (x ++ '\'' :: []) := by simp [forcedText, forced, moreText]
    rw [htext, pair_infix_cons_iff (Ne.symm ha.1), pair_infix_separated_iff (Ne.symm ha.1) (Ne.symm hb), List.infix_nil]
    simp
  | cons m more ih =>
    have htext : forcedText x (m :: more) =
        '\'' :: (x ++ '\'' :: (m.before ++ ',' :: (m.after ++ forcedText m.text more))) := by
      simp [forcedText, forced, moreText]
    rw [htext, pair_infix_cons_iff (Ne.symm ha.1), pair_infix_separated_iff (Ne.symm ha.1) (Ne.symm hb),
      pair_infix_append_iff (hblank m.blanks.1), pair_infix_cons_iff (Ne.symm ha.2.1),
      pair_infix_append_iff (hblank m.blanks.2)]
    simp only [List.map_cons, List.exists_mem_cons_iff, ← ih m.text]

end Pair

/-! ### The sides -/

theorem quote_not_blank : isStripped '\'' = false := by decide

/-- An accepted name has neither a `=` nor a quote. -/
theorem AcceptedLeft.not_mem {lhs : List Char} (h : AcceptedLeft lhs) : '=' ∉ lhs ∧ '\'' ∉ lhs := by
  obtain ⟨-, b, b', hb, hb', hlhs⟩ := wsStrip_decompose lhs
  have hallowed : ∀ c ∈ wsStrip lhs, commonForbidden c = false := by
    intro c hc
    have hany := (List.any_eq_false.1 h.allowed) c (by rwa [String.toList_ofList])
    simpa using hany
  have hnot : ∀ {c : Char}, isStripped c = false → commonForbidden c = true → c ∉ lhs := by
    intro c hblank hforbidden hmem
    rw [hlhs, List.mem_append, List.mem_append] at hmem
    rcases hmem with (hmem | hmem) | hmem
    · rw [hb c hmem] at hblank
      cases hblank
    · rw [hallowed c hmem] at hforbidden
      cases hforbidden
    · rw [hb' c hmem] at hblank
      cases hblank
  exact ⟨hnot (by decide) (by decide), hnot (by decide) (by decide)⟩

theorem forcedText_eq (x : List Char) (more : List MoreForced) :
    ∃ body, forcedText x more = '\'' :: body ∧ body.getLast? = some '\'' := by
  induction more generalizing x with
  | nil => exact ⟨x ++ ['\''], by simp [forcedText, forced, moreText], by simp⟩
  | cons m more ih =>
    obtain ⟨body, hbody, hlast⟩ := ih m.text
    refine ⟨x ++ '\'' :: (m.before ++ ',' :: (m.after ++ '\'' :: body)), ?_, ?_⟩
    · rw [← hbody]
      simp [forcedText, forced, moreText]
    · have hne : body ≠ [] := by
        rintro rfl
        cases hlast
      simp [List.getLast?_cons, hlast]

theorem wsStrip_forcedText (x : List Char) (more : List MoreForced) :
    wsStrip (forcedText x more) = forcedText x more := by
  obtain ⟨body, hbody, hlast⟩ := forcedText_eq x more
  refine wsStrip_of_trimmed ⟨fun c hc => ?_, fun c hc => ?_⟩
  · rw [hbody] at hc
    cases hc
    exact quote_not_blank
  · rw [hbody, List.getLast?_cons, hlast] at hc
    cases hc
    exact quote_not_blank

/-- Only blanks in front of an item are stripped. -/
theorem wsStrip_item {lhs : List Char} (h : AcceptedLeft lhs) (op : EqualityOp) (x : List Char) (more : List MoreForced) :
    ∃ l, wsStrip (lhs ++ op.text ++ forcedText x more) = l ++ op.text ++ forcedText x more ∧ wsStrip l = wsStrip lhs ∧
      '=' ∉ l ∧ '\'' ∉ l ∧ l ≠ [] := by
  obtain ⟨htrimmed, b, b', hb, hb', hlhs⟩ := wsStrip_decompose lhs
  obtain ⟨hequal, hquote⟩ := h.not_mem
  obtain ⟨body, hbody, hlast⟩ := forcedText_eq x more
  have hsuffix : ∀ c ∈ wsStrip lhs ++ b', c ∈ lhs := by
    intro c hc
    rw [hlhs, List.append_assoc]
    exact List.mem_append_right _ hc
  refine ⟨wsStrip lhs ++ b', ?_, ?_, fun hmem => hequal (hsuffix _ hmem), fun hmem => hquote (hsuffix _ hmem), ?_⟩
  · have htext : lhs ++ op.text ++ forcedText x more = b ++ (wsStrip lhs ++ b' ++ op.text ++ forcedText x more) := by
      conv => lhs; rw [hlhs]
      simp
    rw [htext, wsStrip_append_left hb]
    refine wsStrip_of_trimmed ⟨?_, ?_⟩
    · intro c hc
      rw [List.append_assoc, List.append_assoc, List.head?_append_of_ne_nil _ h.nonempty] at hc
      exact htrimmed.1 c hc
    · intro c hc
      have hne : forcedText x more ≠ [] := by
        rw [hbody]
        exact List.cons_ne_nil _ _
      rw [List.getLast?_append_of_ne_nil _ hne, hbody, List.getLast?_cons, hlast] at hc
      cases hc
      exact quote_not_blank
  · rw [wsStrip_append_right hb', wsStrip_wsStrip]
  · simp [h.nonempty]

theorem findOp_equals {l : List Char} (h : '=' ∉ l) (r : List Char) :
    findOp (l ++ EqualityOp.equals.text ++ r) = (.SfopEquals, l, r) := by
  have hfound : strstr "==".toList (l ++ EqualityOp.equals.text ++ r) = some (l, r) := by
    rw [List.append_assoc]
    exact strstr_operator h r
  simp only [findOp, binaryOps, List.findSome?_cons, hfound, Option.map_some]

theorem findOp_differs {l r : List Char} (h : '=' ∉ l) (hequals : ¬['=', '='] <:+: r) (hmatch : ¬['~', '='] <:+: r)
    (hhead : r.head? ≠ some '=') :
    findOp (l ++ EqualityOp.differs.text ++ r) = (.SfopDiffers, l, r) := by
  have hfound : strstr "!=".toList (l ++ EqualityOp.differs.text ++ r) = some (l, r) := by
    rw [List.append_assoc]
    exact strstr_operator h r
  have hnone : ∀ a, a ≠ '!' → ¬[a, '='] <:+: r → strstr [a, '='] (l ++ EqualityOp.differs.text ++ r) = none := by
    intro a ha hr
    rw [← Option.not_isSome_iff_eq_none, strstr_isSome_iff, List.append_assoc]
    have htext : EqualityOp.differs.text ++ r = '!' :: '=' :: r := rfl
    rw [htext, pair_infix_separated_iff (Ne.symm ha) (by decide), List.infix_cons_iff, not_or, not_or]
    refine ⟨fun hl => h (hl.subset (by simp)), fun hbegins => ?_, hr⟩
    cases r with
    | nil => simp at hbegins
    | cons c r =>
      rw [List.cons_prefix_cons, List.cons_prefix_cons] at hbegins
      exact hhead (by rw [List.head?_cons, hbegins.2.1])
  have hequals' : strstr "==".toList (l ++ EqualityOp.differs.text ++ r) = none := hnone '=' (by decide) hequals
  have hmatch' : strstr "~=".toList (l ++ EqualityOp.differs.text ++ r) = none := hnone '~' (by decide) hmatch
  simp only [findOp, binaryOps, List.findSome?_cons, hequals', hmatch', hfound, Option.map_some, Option.map_none]

/-- What stands before an operator that is found in the strings has a quote. -/
theorem quote_mem_of_strstr {a : Char} (ha : a ≠ '!' ∧ a ≠ '\'') {l t l' r' : List Char} (h : '=' ∉ l)
    (hfound : strstr [a, '='] (l ++ '!' :: '=' :: '\'' :: t) = some (l', r')) : '\'' ∈ l' := by
  induction l generalizing l' with
  | nil =>
    simp [strstr, ha.1, ha.2] at hfound
    obtain ⟨l'', -, rfl⟩ := hfound
    simp
  | cons c l ih =>
    rw [List.mem_cons, not_or] at h
    have hnot : ¬[a, '='].isPrefixOf (c :: (l ++ '!' :: '=' :: '\'' :: t)) = true := by
      rw [List.isPrefixOf_iff_prefix]
      intro hbegins
      cases l with
      | nil => simp at hbegins
      | cons d l =>
        simp only [List.cons_append, List.cons_prefix_cons, List.nil_prefix, and_true] at hbegins
        exact h.2 (hbegins.2 ▸ List.mem_cons_self)
    rw [List.cons_append, strstr, if_neg hnot, Option.map_eq_some_iff] at hfound
    obtain ⟨⟨l'', r''⟩, hfound, hsides⟩ := hfound
    cases hsides
    exact List.mem_cons_of_mem _ (ih h.2 hfound)

/-- An operator that is found in the strings leaves a quote on the left side. -/
theorem quote_mem_findOp {l t : List Char} (h : '=' ∉ l)
    (hfound : ['=', '='] <:+: l ++ '!' :: '=' :: '\'' :: t ∨ ['~', '='] <:+: l ++ '!' :: '=' :: '\'' :: t) :
    '\'' ∈ (findOp (l ++ '!' :: '=' :: '\'' :: t)).2.1 := by
  rw [← strstr_isSome_iff, ← strstr_isSome_iff] at hfound
  cases hequals : strstr "==".toList (l ++ '!' :: '=' :: '\'' :: t) with
  | some sides =>
    simp only [findOp, binaryOps, List.findSome?_cons, hequals, Option.map_some]
    exact quote_mem_of_strstr (by decide) h hequals
  | none =>
    replace hfound : (strstr ['~', '='] (l ++ '!' :: '=' :: '\'' :: t)).isSome = true := by
      refine hfound.resolve_left fun hsome => ?_
      replace hequals : strstr ['=', '='] (l ++ '!' :: '=' :: '\'' :: t) = none := hequals
      rw [hequals] at hsome
      cases hsome
    obtain ⟨sides, hmatch⟩ := Option.isSome_iff_exists.1 hfound
    replace hmatch : strstr "~=".toList (l ++ '!' :: '=' :: '\'' :: t) = some sides := hmatch
    simp only [findOp, binaryOps, List.findSome?_cons, hequals, hmatch, Option.map_some, Option.map_none]
    exact quote_mem_of_strstr (by decide) h hmatch

/-- A quote on the left side is refused. -/
theorem parseSides_ne_ok_of_quote {lib : CLibrary} {s : List Char} (h : '\'' ∈ (findOp s).2.1) (item : StringFilterItem) :
    parseSides lib s ≠ .ok item := by
  have hmem : '\'' ∈ wsStrip (findOp s).2.1 := by
    obtain ⟨-, b, b', hb, hb', hsplit⟩ := wsStrip_decompose (findOp s).2.1
    rw [hsplit, List.mem_append, List.mem_append] at h
    exact (h.resolve_right (not_blank_quote hb')).resolve_left (not_blank_quote hb)
  have hforbidden : forbiddenChars (String.ofList (wsStrip (findOp s).2.1)) [] = true := by
    rw [forbiddenChars, List.any_eq_true]
    exact ⟨'\'', by rwa [String.toList_ofList], by decide⟩
  unfold parseSides
  dsimp only
  rw [if_neg fun hempty => List.ne_nil_of_mem hmem hempty.1, if_pos hforbidden]
  simp

/-! ### The right side -/

/-- The item as it is when the right side is looked at. -/
def itemOf (lhs : List Char) (op : EqualityOp) : StringFilterItem := { left := String.ofList (wsStrip lhs), op := op.op }

theorem itemOf_op (lhs : List Char) (op : EqualityOp) :
    (itemOf lhs op).op = .SfopEquals ∨ (itemOf lhs op).op = .SfopDiffers := by
  cases op
  · exact .inl rfl
  · exact .inr rfl

theorem parse_eq_parseSides {lib : CLibrary} {lhs l : List Char} {op : EqualityOp} {x : List Char} {more : List MoreForced}
    (hstrip : wsStrip (lhs ++ op.text ++ forcedText x more) = l ++ op.text ++ forcedText x more) (hquote : '\'' ∉ l)
    (hne : l ≠ []) :
    parse lib (lhs ++ op.text ++ forcedText x more) = parseSides lib (l ++ op.text ++ forcedText x more) := by
  have hhead : (l ++ op.text ++ forcedText x more).head? ≠ some '\'' := by
    rw [List.append_assoc, List.head?_append_of_ne_nil _ hne]
    exact fun hhead => hquote (List.mem_of_head? hhead)
  unfold parse
  dsimp only
  rw [hstrip, if_neg (by simp [hne]), if_neg hhead]

/-- Once the operator is found, the form of the right side decides. -/
theorem parse_of_findOp {lib : CLibrary} {lhs l : List Char} {op : EqualityOp} {x : List Char} {more : List MoreForced}
    (hleft : AcceptedLeft lhs) (hstrip : wsStrip (lhs ++ op.text ++ forcedText x more) = l ++ op.text ++ forcedText x more)
    (hl : wsStrip l = wsStrip lhs) (hquote : '\'' ∉ l) (hne : l ≠ [])
    (hfound : findOp (l ++ op.text ++ forcedText x more) = (op.op, l, forcedText x more)) :
    parse lib (lhs ++ op.text ++ forcedText x more) =
      if (strstr ['.', '.'] (forcedText x more)).isSome then rangeParse lib (itemOf lhs op) (forcedText x more)
      else if ',' ∈ forcedText x more then listParse lib (itemOf lhs op) (forcedText x more)
      else valueParse lib (itemOf lhs op) (forcedText x more) := by
  obtain ⟨body, hbody, -⟩ := forcedText_eq x more
  have hnonempty : forcedText x more ≠ [] := by
    rw [hbody]
    exact List.cons_ne_nil _ _
  have hop : ¬(op.op = .SfopNotExists ∨ op.op = .SfopExists) := by
    cases op <;> simp [EqualityOp.op]
  rw [parse_eq_parseSides hstrip hquote hne]
  unfold parseSides
  dsimp only
  rw [hfound]
  dsimp only
  rw [hl, wsStrip_forcedText, if_neg fun hempty => hleft.nonempty hempty.1, if_neg (by rw [hleft.allowed]; simp), if_neg hnonempty,
    if_neg hop]
  rfl

theorem rangeParse_valueType {lib : CLibrary} {item item' : StringFilterItem} {s : List Char}
    (h : rangeParse lib item s = .ok item') : item'.valueType ≠ .SfvtString ∧ item'.valueType ≠ .SfvtStringList := by
  obtain ⟨-, -, -, valueType, hrange⟩ := rangeParse_cases h
  cases valueType <;> simp only [rangeType, Option.some.injEq, reduceCtorEq] at hrange <;> simp [← hrange]

/-- A list has no string value. -/
theorem listItemAdd_valueType {lib : CLibrary} {item item' : StringFilterItem}
    (hempty : item.stringList = [] ∧ item.numberList = []) {text : List Char} (h : listItemAdd lib item text = .ok item') :
    item'.valueType ≠ .SfvtString := by
  rcases gives_of_listItemAdd ⟨hempty.2, .inl hempty.1⟩ h with ⟨y, hy⟩ | hnumbers
  · rw [listItemAdd_of_gives ⟨hempty.2, .inl hempty.1⟩ hy] at h
    cases h
    simp [withStrings]
  · exact hnumbers.2.2

/-- A forced string alone. -/
theorem valueParse_forced {lib : CLibrary} {item : StringFilterItem} (hop : item.op = .SfopEquals ∨ item.op = .SfopDiffers)
    {x : List Char} (h : '\'' ∉ x) :
    valueParse lib item (forced x) = .ok { item with valueType := .SfvtString, stringValue := String.ofList x } := by
  have hforced : forcedString (x ++ ['\'']) = .ok x := by
    unfold forcedString lastChar
    rw [List.getLast?_append_of_ne_nil _ (by simp), List.dropLast_concat]
    simp [h]
  have hget : valueGet lib (forced x) item.numberValue item.stringValue item.boolValue =
      .ok { valueType := .SfvtString, double := item.numberValue, string := String.ofList x, bool := item.boolValue } := by
    unfold valueGet forced
    rw [if_pos List.head?_cons, List.tail_cons, hforced]
    rfl
  unfold valueParse
  rw [hget]
  show (if item.op = .SfopEquals ∨ item.op = .SfopDiffers then _ else _) = _
  rw [if_pos hop]

/-- The elements of a list are the strings if and only if each is seen as its string. -/
theorem gives_elements_iff {lib : CLibrary} {x : List Char} {more : List MoreForced} (h : ForcedTexts x more) :
    List.Forall₂ (Gives lib) (elementText [] x :: more.map fun m => elementText m.after m.text)
        (String.ofList x :: more.map fun m => String.ofList m.text) ↔
      PlainString lib x ∧ (∀ m ∈ more, m.after = [] → PlainString lib m.text) ∧ ∀ m ∈ more, m.after ≠ [] → m.text = [] := by
  rw [List.forall₂_cons, List.forall₂_map_left_iff, List.forall₂_map_right_iff, List.forall₂_same]
  have hfirst : Gives lib (elementText [] x) (String.ofList x) ↔ PlainString lib x := by
    rw [gives_elementText_iff blanks_nil h.first.1]
    simp
  rw [hfirst]
  refine and_congr_right fun _ => ⟨fun hall => ⟨fun m hm => ?_, fun m hm => ?_⟩, fun hall m hm => ?_⟩
  · exact ((gives_elementText_iff m.blanks.2 (h.more m hm).1).1 (hall m hm)).1
  · exact ((gives_elementText_iff m.blanks.2 (h.more m hm).1).1 (hall m hm)).2
  · exact (gives_elementText_iff m.blanks.2 (h.more m hm).1).2 ⟨hall.1 m hm, hall.2 m hm⟩

theorem listParse_forcedText {lib : CLibrary} {lhs : List Char} {op : EqualityOp} {x : List Char} {more : List MoreForced}
    (h : ForcedTexts x more) :
    listParse lib (itemOf lhs op) (forcedText x more) =
      (elementText [] x :: more.map fun m => elementText m.after m.text).foldlM (listItemAdd lib) (itemOf lhs op) := by
  have hnot : ¬((itemOf lhs op).op ≠ .SfopEquals ∧ (itemOf lhs op).op ≠ .SfopDiffers) := fun hop =>
    (itemOf_op lhs op).elim hop.1 hop.2
  unfold listParse
  rw [if_neg hnot, wsStrip_forcedText]
  exact listLoop_elements lib _ blanks_nil h.first h.more

/-- The list of the strings is parsed if and only if each is seen as its string. -/
theorem listParse_forced_iff {lib : CLibrary} {lhs : List Char} {op : EqualityOp} {x : List Char} {more : List MoreForced}
    (h : ForcedTexts x more) :
    (∃ item, listParse lib (itemOf lhs op) (forcedText x more) = .ok item ∧ item.op = op.op ∧
        item.valueType = .SfvtStringList ∧ item.stringList = String.ofList x :: more.map fun m => String.ofList m.text) ↔
      PlainString lib x ∧ (∀ m ∈ more, m.after = [] → PlainString lib m.text) ∧ ∀ m ∈ more, m.after ≠ [] → m.text = [] := by
  have hempty : StringsOnly (itemOf lhs op) := ⟨rfl, .inl rfl⟩
  rw [← gives_elements_iff h, listParse_forcedText h]
  constructor
  · rintro ⟨item, hitem, -, htype, hlist⟩
    obtain ⟨ys, hys, hlist'⟩ := gives_of_foldlM hempty hitem htype
    rw [hlist, itemOf, List.nil_append] at hlist'
    rwa [hlist']
  · intro hgives
    exact ⟨_, foldlM_of_gives hempty hgives (List.cons_ne_nil _ _), rfl, rfl, rfl⟩

/-- A comma in a string alone makes a list of it. -/
theorem listParse_single_valueType {lib : CLibrary} {lhs : List Char} {op : EqualityOp} {x : List Char}
    (h : ForcedTexts x []) {item : StringFilterItem} (hitem : listParse lib (itemOf lhs op) (forcedText x []) = .ok item) :
    item.valueType ≠ .SfvtString := by
  rw [listParse_forcedText h, List.map_nil, List.foldlM_cons] at hitem
  cases hadd : listItemAdd lib (itemOf lhs op) (elementText [] x) with
  | error e =>
    rw [hadd] at hitem
    cases hitem
  | ok added =>
    rw [hadd] at hitem
    cases hitem
    exact listItemAdd_valueType ⟨rfl, rfl⟩ hadd

theorem comma_mem_forcedText_iff {x : List Char} {more : List MoreForced} :
    ',' ∈ forcedText x more ↔ more ≠ [] ∨ ',' ∈ x := by
  cases more with
  | nil => simp [forcedText, forced, moreText]
  | cons m more => simp [forcedText, forced, moreText]

/-- What the right side gives, once the operator is found. -/
theorem parsedForced_iff_of_findOp {lib : CLibrary} {lhs l : List Char} {op : EqualityOp} {x : List Char}
    {more : List MoreForced} (hleft : AcceptedLeft lhs) (h : ForcedTexts x more)
    (hstrip : wsStrip (lhs ++ op.text ++ forcedText x more) = l ++ op.text ++ forcedText x more)
    (hl : wsStrip l = wsStrip lhs) (hquote : '\'' ∉ l) (hne : l ≠ [])
    (hfound : findOp (l ++ op.text ++ forcedText x more) = (op.op, l, forcedText x more)) :
    ParsedForced lib lhs op x more ↔
      (∀ t ∈ x :: more.map MoreForced.text, ¬['.', '.'] <:+: t) ∧ (more = [] → ',' ∉ x) ∧
        (more ≠ [] → PlainString lib x ∧ (∀ m ∈ more, m.after = [] → PlainString lib m.text) ∧
          ∀ m ∈ more, m.after ≠ [] → m.text = []) := by
  have hdots : (strstr ['.', '.'] (forcedText x more)).isSome = true ↔
      ∃ t ∈ x :: more.map MoreForced.text, ['.', '.'] <:+: t := by
    rw [strstr_isSome_iff, pair_infix_forcedText_iff (by decide) (by decide)]
  rw [ParsedForced, parse_of_findOp hleft hstrip hl hquote hne hfound]
  by_cases hrange : ∃ t ∈ x :: more.map MoreForced.text, ['.', '.'] <:+: t
  · -- a range has neither a string nor a list of strings
    rw [if_pos (hdots.2 hrange)]
    refine iff_of_false ?_ fun hkept => ?_
    · rintro ⟨item, hitem, -, hsingle, hlist⟩
      obtain ⟨hstring, hstrings⟩ := rangeParse_valueType hitem
      by_cases hmore : more = []
      · exact hstring (hsingle hmore).1
      · exact hstrings (hlist hmore).1
    · obtain ⟨t, ht, hpair⟩ := hrange
      exact hkept.1 t ht hpair
  · have hnodots : ∀ t ∈ x :: more.map MoreForced.text, ¬['.', '.'] <:+: t := fun t ht hpair => hrange ⟨t, ht, hpair⟩
    rw [if_neg fun hsome => hrange (hdots.1 hsome), and_iff_right hnodots]
    by_cases hmore : more = []
    · subst hmore
      by_cases hcomma : ',' ∈ x
      · rw [if_pos (comma_mem_forcedText_iff.2 (.inr hcomma))]
        refine iff_of_false ?_ fun hkept => hkept.1 rfl hcomma
        rintro ⟨item, hitem, -, hsingle, -⟩
        exact listParse_single_valueType h hitem (hsingle rfl).1
      · have htext : forcedText x [] = forced x := by simp [forcedText, moreText]
        have hnot : ',' ∉ forced x := by
          rw [← htext, comma_mem_forcedText_iff]
          simp [hcomma]
        rw [htext, if_neg hnot, valueParse_forced (itemOf_op lhs op) h.first.1]
        refine iff_of_true ⟨_, rfl, rfl, fun _ => ⟨rfl, rfl⟩, fun hmore => absurd rfl hmore⟩ ?_
        exact ⟨fun _ => hcomma, fun hmore => absurd rfl hmore⟩
    · rw [if_pos (comma_mem_forcedText_iff.2 (.inl hmore))]
      simp only [hmore, ne_eq, not_false_eq_true, forall_const, false_implies, true_and]
      exact listParse_forced_iff h

/-- Forced strings are kept if and only if they are of the form that `ForcedKept` says. -/
theorem parse_forced_iff (lib : CLibrary) {lhs : List Char} (op : EqualityOp) {x : List Char} {more : List MoreForced}
    (hleft : AcceptedLeft lhs) (h : ForcedTexts x more) :
    ParsedForced lib lhs op x more ↔ ForcedKept lib op x more := by
  obtain ⟨l, hstrip, hl, hequal, hquote, hne⟩ := wsStrip_item hleft op x more
  by_cases hoperator : op = .differs → ∀ t ∈ x :: more.map MoreForced.text, ¬['=', '='] <:+: t ∧ ¬['~', '='] <:+: t
  · have hfound : findOp (l ++ op.text ++ forcedText x more) = (op.op, l, forcedText x more) := by
      cases op with
      | equals => exact findOp_equals hequal _
      | differs =>
        obtain ⟨body, hbody, -⟩ := forcedText_eq x more
        refine findOp_differs hequal ?_ ?_ (by rw [hbody]; simp)
        · rw [pair_infix_forcedText_iff (by decide) (by decide)]
          rintro ⟨t, ht, hpair⟩
          exact (hoperator rfl t ht).1 hpair
        · rw [pair_infix_forcedText_iff (by decide) (by decide)]
          rintro ⟨t, ht, hpair⟩
          exact (hoperator rfl t ht).2 hpair
    rw [parsedForced_iff_of_findOp hleft h hstrip hl hquote hne hfound]
    constructor
    · rintro ⟨hrange, hsingle, hlist⟩
      by_cases hmore : more = []
      · subst hmore
        exact ⟨hoperator, hrange, hsingle, fun hmore => absurd rfl hmore, by simp, by simp⟩
      · obtain ⟨hfirst, hclose, hapart⟩ := hlist hmore
        exact ⟨hoperator, hrange, hsingle, fun _ => hfirst, hclose, hapart⟩
    · intro hkept
      exact ⟨hkept.range, hkept.single, fun hmore => ⟨hkept.first hmore, hkept.close, hkept.apart⟩⟩
  · -- another operator is found behind a quote
    refine iff_of_false ?_ fun hkept => hoperator hkept.operator
    rintro ⟨item, hitem, -⟩
    rw [Classical.not_imp] at hoperator
    obtain ⟨rfl, hfound⟩ := hoperator
    obtain ⟨body, hbody, -⟩ := forcedText_eq x more
    have htext : l ++ EqualityOp.differs.text ++ forcedText x more = l ++ '!' :: '=' :: '\'' :: body := by
      rw [hbody, List.append_assoc]
      rfl
    have hpair : ['=', '='] <:+: forcedText x more ∨ ['~', '='] <:+: forcedText x more := by
      rw [pair_infix_forcedText_iff (by decide) (by decide), pair_infix_forcedText_iff (by decide) (by decide)]
      by_contra hnone
      rw [not_or] at hnone
      exact hfound fun t ht => ⟨fun hpair => hnone.1 ⟨t, ht, hpair⟩, fun hpair => hnone.2 ⟨t, ht, hpair⟩⟩
    have hsuffix : forcedText x more <:+: l ++ EqualityOp.differs.text ++ forcedText x more := List.infix_append_right
    have hmem : '\'' ∈ (findOp (l ++ EqualityOp.differs.text ++ forcedText x more)).2.1 := by
      rw [htext] at hsuffix ⊢
      exact quote_mem_findOp hequal (hpair.imp (fun hi => hi.trans hsuffix) fun hi => hi.trans hsuffix)
    rw [parse_eq_parseSides hstrip hquote hne] at hitem
    exact parseSides_ne_ok_of_quote hmem item hitem

theorem parse_forced_iff_words :
    ParsedForced StringFilter.plainLibrary ['a'] .differs ['x'] [⟨[], [], ['y'], blanks_nil, blanks_nil⟩] := by
  have hx : PlainString StringFilter.plainLibrary ['x'] :=
    ⟨by decide, by decide, by decide +kernel, by decide, by decide⟩
  have hy : PlainString StringFilter.plainLibrary ['y'] :=
    ⟨by decide, by decide, by decide +kernel, by decide, by decide⟩
  refine (parse_forced_iff StringFilter.plainLibrary .differs ⟨by decide, by decide⟩ ⟨by decide, by simp⟩).2 ?_
  exact ⟨fun _ => by decide, by decide, fun hmore => absurd hmore (by simp), fun _ => hx, by simpa using hy, by simp⟩

/-- Two numbers in quotes are a list of numbers. -/
theorem forced_digits :
    ¬ParsedForced StringFilter.plainLibrary ['a'] .equals ['1'] [⟨[], [], ['2'], blanks_nil, blanks_nil⟩] := by
  have hparse : parse StringFilter.plainLibrary "a=='1','2'".toList =
      .ok { left := "a", op := .SfopEquals, valueType := .SfvtNumberList, numberList := [.fin 1, .fin 2] } := by
    decide +kernel
  rintro ⟨item, hitem, -, -, hlist⟩
  have htext : ['a'] ++ EqualityOp.equals.text ++ forcedText ['1'] [⟨[], [], ['2'], blanks_nil, blanks_nil⟩] =
      "a=='1','2'".toList := by decide
  rw [htext, hparse] at hitem
  cases hitem
  exact absurd (hlist (by simp)).1 (by simp)

end StringFilterItem

end OrionBroker
