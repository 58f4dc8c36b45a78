import OrionBroker.FilterPieces
import OrionBroker.GrowingVector

/-!
# Copies of a string filter (`StringFilter.cpp`)

The items of a filter stand in a vector.  The destructor of an item frees its compiled regular expression, and items are
copied field by field, so that the copy of an item has the same expression.  When the vector grows, the expressions of
its items are freed with the old items, and the new items are left with expressions that are gone.  `parse`, `clone` and
`fill` all add items to a vector that grows.

`StringFilterItem::fill` compiles the expression once more, after it has taken over the mark that says so; the mark stays
if that fails.  So a copy is right if and only if every expression compiles again, and the expression that `match` uses,
the first one, is either not freed or never asked for (`copy_right_iff`).
-/

namespace OrionBroker

open Bson GrowingVector

/-- What `patternValue` has: nothing, an expression, or one that was freed. -/
inductive Expression where
  | absent
  | live (pattern : String)
  | freed
deriving DecidableEq

/-- An item in a vector. -/
structure HeldItem where
  item : StringFilterItem
  expression : Expression
deriving DecidableEq

/-- `StringFilter`. -/
structure HeldFilter where
  filters : Growing HeldItem
  mongoFilters : List BSONObj

namespace HeldItem

/-- The copy of an item, when the destructor of the item has been called.  It cannot free what is not there. -/
def destroyed (held : HeldItem) : Option HeldItem :=
  if held.item.compiledPattern = true then
    match held.expression with
    | .live _ => some { held with expression := .freed }
    | _ => none
  else some held

/-- An item whose expression was compiled. -/
def compiled (item : StringFilterItem) : HeldItem :=
  { item, expression := if item.compiledPattern = true then .live item.stringValue else .absent }

/-- `StringFilterItem::fill`: whether it succeeds, and the new item; `ok` says whether `regcomp` does. -/
def fill (ok : Bool) (item : StringFilterItem) : Bool × HeldItem :=
  if item.compiledPattern = true then
    if ok then (true, { item, expression := .live item.stringValue }) else (false, { item, expression := .absent })
  else (true, { item, expression := .absent })

variable (regexec : String → String → Bool)

/-- A turn of the loop of `match`; nothing at all if an expression is used that is not there. -/
def turn (held : HeldItem) (cer : ContextElementResponse) : Option (Option Bool) :=
  if held.item.op = .SfopMatchPattern then
    match held.item.leftAttribute cer with
    | none => some (some false)
    | some ca =>
      if ca.valueType ≠ .string then some (some false)
      else
        match held.expression with
        | .live pattern => some (some (regexec pattern ca.stringValue))
        | _ => none
  else some (held.item.turn regexec cer)

end HeldItem

/-- How copying a filter ends: with the copy, with an item that could not be copied, or with an expression that is freed
twice. -/
inductive Copied where
  | undefined
  | failed (left : HeldItem)
  | done (copy : HeldFilter)

namespace StringFilter

/-- `StringFilter::match`. -/
def matchHeld (regexec : String → String → Bool) : List HeldItem → ContextElementResponse → Option Bool
  | [], _ => some true
  | held :: filters, cer => do
    match ← held.turn regexec cer with
    | some b => return b
    | none => matchHeld regexec filters cer

section Copies

variable (grow : Nat → Nat) (again : Nat → Bool)

/-- `StringFilter::parse`, with the vector that it leaves. -/
def parseHeld (lib : CLibrary) (q : String) : Option HeldFilter :=
  match parse lib q with
  | .error _ => none
  | .ok (filters, mongoFilters) => do
    let filters ← pushAll grow HeldItem.destroyed (.empty HeldItem 0) (filters.map HeldItem.compiled)
    return { filters, mongoFilters }

/-- The loop of `clone` and `fill`; `again` says for which items `regcomp` succeeds. -/
def copyLoop (mongoFilters : List BSONObj) : Nat → List HeldItem → Growing HeldItem → Copied
  | _, [], filters => .done { filters, mongoFilters }
  | ix, held :: rest, filters =>
    match HeldItem.fill (again ix) held.item with
    | (false, sfi) => .failed sfi
    | (true, sfi) =>
      match push grow HeldItem.destroyed filters sfi with
      | none => .undefined
      | some filters => copyLoop mongoFilters (ix + 1) rest filters

/-- `StringFilter::clone`. -/
def clone (source : HeldFilter) : Copied :=
  copyLoop grow again source.mongoFilters 0 source.filters.items (.empty HeldItem 0)

/-- `StringFilter::fill` of a filter without items, whose vector may have a storage. -/
def fill (capacity : Nat) (source : HeldFilter) : Copied :=
  copyLoop grow again source.mongoFilters 0 source.filters.items (.empty HeldItem capacity)

/-- All expressions compile again. -/
def CompilesAgain (source : HeldFilter) : Prop :=
  ∀ ix held, source.filters.items[ix]? = some held → held.item.compiledPattern = true → again ix = true

/-- The copy has the same filters for the database and matches the same responses, and an item whose expression does not
compile is not marked. -/
structure CopyRight (regexec : String → String → Bool) (source : HeldFilter) (outcome : Copied) : Prop where
  same : CompilesAgain again source → ∃ copy, outcome = .done copy ∧ copy.mongoFilters = source.mongoFilters ∧
    ∀ cer, ∃ b, matchHeld regexec copy.filters.items cer = some b ∧ matchHeld regexec source.filters.items cer = some b
  unmarked : ∀ left, outcome = .failed left → left.item.compiledPattern = false

/-- A response that all items before the first pattern accept has a string for the pattern, and the vector grows over
the pattern. -/
def FreedReached (regexec : String → String → Bool) (items : List StringFilterItem) : Prop :=
  ∃ front pattern rest cer ca, items = front ++ pattern :: rest ∧
    (∀ item ∈ front, item.op ≠ .SfopMatchPattern ∧ item.accepts regexec cer = true) ∧
    pattern.op = .SfopMatchPattern ∧ pattern.leftAttribute cer = some ca ∧ ca.valueType = .string ∧
    GrownOver grow front.length items.length

end Copies

end StringFilter

/-! ### Marks -/

namespace StringFilterItem

variable {lib : CLibrary} {item item' : StringFilterItem}

/-- The mark of an item is that of its operator. -/
def Marked (item : StringFilterItem) : Prop := item.compiledPattern = true ↔ item.op = .SfopMatchPattern

theorem listItemAdd_keeps {s : List Char} (h : listItemAdd lib item s = .ok item') :
    item'.compiledPattern = item.compiledPattern ∧ item'.op = item.op := by
  obtain ⟨-, v, -, hadd⟩ := listItemAdd_cases h
  unfold listItem at hadd
  split at hadd
  · split at hadd <;> cases hadd <;> exact ⟨rfl, rfl⟩
  · split_ifs at hadd <;> cases hadd <;> exact ⟨rfl, rfl⟩

theorem listLoop_keeps {pending : List Char} {inString : Bool} {s : List Char}
    (h : listLoop lib item pending inString s = .ok item') :
    item'.compiledPattern = item.compiledPattern ∧ item'.op = item.op := by
  induction s generalizing item pending inString with
  | nil =>
    unfold listLoop at h
    split at h
    · cases h
      exact ⟨rfl, rfl⟩
    · exact listItemAdd_keeps h
  | cons c s ih =>
    unfold listLoop at h
    split at h
    · split at h
      · exact ih h
      · exact ih h
    · split at h
      · split at h
        · cases h
        · rename_i added hadd
          split at h
          · cases h
          · have hrest := ih h
            have hadded := listItemAdd_keeps hadd
            exact ⟨hrest.1.trans hadded.1, hrest.2.trans hadded.2⟩
      · exact ih h

theorem valueParse_marked {s : List Char} (hitem : item.compiledPattern = false) (h : valueParse lib item s = .ok item') :
    Marked item' := by
  unfold valueParse at h
  cases hv : valueGet lib s item.numberValue item.stringValue item.boolValue with
  | error e =>
    rw [hv] at h
    cases h
  | ok v =>
    rw [hv] at h
    simp only [bind, Except.bind] at h
    unfold Marked
    split_ifs at h with hequality horder hpattern hcompiles <;> cases h
    · rcases hequality with hop | hop <;> simp [hop, hitem]
    · simp [hpattern]
    · simp [hpattern, hitem]

theorem parseSides_marked {s : List Char} (h : parseSides lib s = .ok item) : Marked item := by
  unfold parseSides at h
  dsimp only at h
  split_ifs at h with hleft hchars hright hunary hrange hlist
  · cases h
    unfold Marked
    rcases hunary with hop | hop <;> simp [hop]
  · obtain ⟨hequality, hop, hmark, -⟩ := rangeParse_cases h
    unfold Marked
    rw [hmark, hop]
    rcases hequality with hop | hop
    · rw [hop]
      simp
    · rw [hop]
      simp
  · unfold listParse at h
    split at h
    · cases h
    · rename_i hvalid
      obtain ⟨hmark, hop⟩ := listLoop_keeps h
      unfold Marked
      rw [hmark, hop]
      refine iff_of_false (by simp) fun heq => hvalid ?_
      dsimp only at heq
      simp [heq]
  · exact valueParse_marked rfl h

theorem parse_marked {qItem : List Char} (h : parse lib qItem = .ok item) : Marked item := by
  unfold parse at h
  dsimp only at h
  split at h
  · cases h
  · split at h
    · cases ht : forcedString (wsStrip qItem).tail with
      | error e =>
        rw [ht] at h
        cases h
      | ok t =>
        rw [ht] at h
        exact parseSides_marked h
    · exact parseSides_marked h

end StringFilterItem

/-! ### Matching with expressions that may be gone -/

namespace HeldItem

/-- An expression that is there is the one of the item. -/
def Intact (held : HeldItem) : Prop := ∀ pattern, held.expression = .live pattern → pattern = held.item.stringValue

variable {regexec : String → String → Bool} {held : HeldItem} {cer : ContextElementResponse}

theorem turn_of_not_pattern (h : held.item.op ≠ .SfopMatchPattern) :
    held.turn regexec cer = some (if held.item.accepts regexec cer then none else some false) := by
  rw [turn, if_neg h, OrionBroker.turn_of_not_pattern h]

/-- A turn that comes to an end is the one of the item. -/
theorem turn_eq (hintact : held.Intact) {t : Option Bool} (h : held.turn regexec cer = some t) :
    t = held.item.turn regexec cer := by
  by_cases hop : held.item.op = .SfopMatchPattern
  · rw [OrionBroker.turn_of_pattern hop, StringFilterItem.accepts, hop]
    rw [turn, if_pos hop] at h
    cases hca : held.item.leftAttribute cer with
    | none =>
      rw [hca] at h
      cases h
      rfl
    | some ca =>
      rw [hca] at h
      dsimp only at h ⊢
      rw [Option.any_some, StringFilterItem.matchPattern]
      by_cases hstring : ca.valueType ≠ .string
      · rw [if_pos hstring] at h
        cases h
        rw [if_pos hstring]
      · rw [if_neg hstring] at h ⊢
        cases hexpression : held.expression with
        | live pattern =>
          rw [hexpression] at h
          cases h
          rw [hintact pattern hexpression]
        | absent =>
          rw [hexpression] at h
          cases h
        | freed =>
          rw [hexpression] at h
          cases h
  · rw [turn, if_neg hop] at h
    cases h
    rfl

end HeldItem

namespace StringFilter

section Match

variable {regexec : String → String → Bool} {items : List HeldItem} {cer : ContextElementResponse}

/-- A match that comes to an end is the one of the items. -/
theorem matchHeld_eq (hintact : ∀ held ∈ items, held.Intact) {b : Bool} (h : matchHeld regexec items cer = some b) :
    b = StringFilter.match regexec (items.map HeldItem.item) cer := by
  induction items with
  | nil =>
    cases h
    rfl
  | cons held items ih =>
    rw [List.forall_mem_cons] at hintact
    obtain ⟨t, ht, h⟩ := Option.bind_eq_some_iff.1 h
    rw [List.map_cons, StringFilter.match, ← HeldItem.turn_eq hintact.1 ht]
    cases t with
    | none => exact ih hintact.2 h
    | some b' =>
      cases h
      rfl

/-- The match uses an expression that is not there: that of the first pattern, if all items before it accept the
response, and the attribute is a string. -/
theorem matchHeld_eq_none_iff :
    matchHeld regexec items cer = none ↔ ∃ front held rest ca, items = front ++ held :: rest ∧
      (∀ f ∈ front, f.item.op ≠ .SfopMatchPattern ∧ f.item.accepts regexec cer = true) ∧
      held.item.op = .SfopMatchPattern ∧ held.item.leftAttribute cer = some ca ∧ ca.valueType = .string ∧
      ∀ pattern, held.expression ≠ .live pattern := by
  induction items with
  | nil => simp [matchHeld]
  | cons held items ih =>
    rw [matchHeld]
    by_cases hop : held.item.op = .SfopMatchPattern
    · have hfirst : (∃ front held' rest ca, held :: items = front ++ held' :: rest ∧
          (∀ f ∈ front, f.item.op ≠ .SfopMatchPattern ∧ f.item.accepts regexec cer = true) ∧
          held'.item.op = .SfopMatchPattern ∧ held'.item.leftAttribute cer = some ca ∧ ca.valueType = .string ∧
          ∀ pattern, held'.expression ≠ .live pattern) ↔
            ∃ ca, held.item.leftAttribute cer = some ca ∧ ca.valueType = .string ∧
              ∀ pattern, held.expression ≠ .live pattern := by
        constructor
        · rintro ⟨front, held', rest, ca, hsplit, hfront, -, hleft⟩
          cases front with
          | nil =>
            cases hsplit
            exact ⟨ca, hleft⟩
          | cons f front =>
            cases hsplit
            exact absurd hop (hfront held List.mem_cons_self).1
        · rintro ⟨ca, hleft⟩
          exact ⟨[], held, items, ca, rfl, by simp, hop, hleft⟩
      rw [hfirst, HeldItem.turn, if_pos hop]
      cases held.item.leftAttribute cer with
      | none => simp
      | some ca =>
        by_cases hstring : ca.valueType = .string
        · cases held.expression <;> simp [hstring]
        · simp [hstring]
    · rw [HeldItem.turn_of_not_pattern hop]
      cases haccepts : held.item.accepts regexec cer with
      | false =>
        refine iff_of_false (by simp) ?_
        rintro ⟨front, held', rest, ca, hsplit, hfront, hpattern, -⟩
        cases front with
        | nil =>
          cases hsplit
          exact hop hpattern
        | cons f front =>
          cases hsplit
          have hall := (hfront held List.mem_cons_self).2
          rw [haccepts] at hall
          cases hall
      | true =>
        simp only [if_true, Option.bind_eq_bind, Option.bind_some]
        rw [ih]
        constructor
        · rintro ⟨front, held', rest, ca, rfl, hfront, hrest⟩
          exact ⟨held :: front, held', rest, ca, rfl, List.forall_mem_cons.2 ⟨⟨hop, haccepts⟩, hfront⟩, hrest⟩
        · rintro ⟨front, held', rest, ca, hsplit, hfront, hpattern, hrest⟩
          cases front with
          | nil =>
            cases hsplit
            exact absurd hpattern hop
          | cons f front =>
            cases hsplit
            exact ⟨front, held', rest, ca, rfl, (List.forall_mem_cons.1 hfront).2, hpattern, hrest⟩

end Match

end StringFilter

/-! ### The vector -/

namespace HeldItem

theorem compiled_intact (item : StringFilterItem) : (compiled item).Intact := by
  intro pattern h
  rw [compiled] at h
  dsimp only at h
  split at h
  · cases h
    rfl
  · cases h

theorem destroyed_of_unmarked {held : HeldItem} (h : held.item.compiledPattern ≠ true) : held.destroyed = some held := if_neg h

theorem destroyed_of_live {held : HeldItem} (h : held.item.compiledPattern = true) {pattern : String}
    (hexpression : held.expression = .live pattern) : held.destroyed = some { held with expression := .freed } := by
  rw [destroyed, if_pos h, hexpression]

/-- Only what is there is freed. -/
theorem live_of_destroyed {held held' : HeldItem} (hmark : held.item.compiledPattern = true)
    (h : held.destroyed = some held') :
    (∃ pattern, held.expression = .live pattern) ∧ held' = { held with expression := .freed } := by
  rw [destroyed, if_pos hmark] at h
  cases hexpression : held.expression with
  | live pattern =>
    rw [hexpression] at h
    cases h
    exact ⟨⟨pattern, rfl⟩, rfl⟩
  | absent =>
    rw [hexpression] at h
    cases h
  | freed =>
    rw [hexpression] at h
    cases h

/-- What is left of an item after its originals were destroyed: the expression is there if none was. -/
theorem times_compiled {item : StringFilterItem} {k : Nat} {held : HeldItem}
    (h : times destroyed k (compiled item) = some held) :
    held.item = item ∧ held.Intact ∧ (item.compiledPattern = true → ((∃ pattern, held.expression = .live pattern) ↔ k = 0)) := by
  induction k generalizing held with
  | zero =>
    cases h
    exact ⟨rfl, compiled_intact item, fun hmark => iff_of_true ⟨item.stringValue, by simp [compiled, hmark]⟩ rfl⟩
  | succ k ih =>
    obtain ⟨before, hbefore, hdestroyed⟩ := Option.bind_eq_some_iff.1 h
    obtain ⟨hitem, hintact, -⟩ := ih hbefore
    by_cases hmark : item.compiledPattern = true
    · obtain ⟨-, rfl⟩ := live_of_destroyed (by rw [hitem]; exact hmark) hdestroyed
      refine ⟨hitem, fun pattern hlive => ?_, fun _ => iff_of_false ?_ (Nat.succ_ne_zero k)⟩
      · cases hlive
      · rintro ⟨pattern, hlive⟩
        cases hlive
    · rw [destroyed_of_unmarked (by rw [hitem]; exact hmark)] at hdestroyed
      cases hdestroyed
      exact ⟨hitem, hintact, fun h => absurd h hmark⟩

/-- The second item has the expression of the first one, or has it still where the first one has not. -/
structure Fresher (x y : HeldItem) : Prop where
  item : x.item = y.item
  intact : x.Intact
  expression : y.expression = x.expression ∨ (x.expression = .freed ∧ y.expression = .live y.item.stringValue)

theorem fresher_simulates : Simulates Fresher destroyed destroyed where
  both := by
    intro x y x' hxy hx
    by_cases hmark : x.item.compiledPattern = true
    · obtain ⟨⟨pattern, hlive⟩, rfl⟩ := live_of_destroyed hmark hx
      have hlive' : y.expression = .live pattern := by
        rcases hxy.expression with heq | ⟨hfreed, -⟩
        · rw [heq, hlive]
        · rw [hlive] at hfreed
          cases hfreed
      refine ⟨_, destroyed_of_live (by rw [← hxy.item]; exact hmark) hlive', hxy.item, ?_, .inl rfl⟩
      intro pattern' h
      cases h
    · rw [destroyed_of_unmarked hmark] at hx
      cases hx
      exact ⟨y, destroyed_of_unmarked (by rw [← hxy.item]; exact hmark), hxy⟩
  first := by
    intro x y x' hxy hx
    by_cases hmark : x.item.compiledPattern = true
    · obtain ⟨⟨pattern, hlive⟩, rfl⟩ := live_of_destroyed hmark hx
      refine ⟨hxy.item, ?_, .inr ⟨rfl, ?_⟩⟩
      · intro pattern' h
        cases h
      · rcases hxy.expression with heq | ⟨hfreed, -⟩
        · rw [heq, hlive, hxy.intact pattern hlive, hxy.item]
        · rw [hlive] at hfreed
          cases hfreed
    · rw [destroyed_of_unmarked hmark] at hx
      cases hx
      exact hxy

theorem fresher_compiled (item : StringFilterItem) : Fresher (compiled item) (compiled item) :=
  ⟨rfl, compiled_intact item, .inl rfl⟩

theorem fill_of_ok {ok : Bool} {item : StringFilterItem} (h : item.compiledPattern = true → ok = true) :
    fill ok item = (true, compiled item) := by
  unfold fill compiled
  by_cases hmark : item.compiledPattern = true
  · simp [hmark, h hmark]
  · simp [hmark]

/-- The mark stays if the expression does not compile. -/
theorem fill_of_failure {item : StringFilterItem} (h : item.compiledPattern = true) :
    fill false item = (false, { item, expression := .absent }) := by
  simp [fill, h]

end HeldItem

namespace StringFilter

section Copies

variable {grow : Nat → Nat} {again : Nat → Bool}

/-- As long as the expressions compile, copies are added to the vector. -/
theorem copyLoop_append {mongoFilters : List BSONObj} {front : List HeldItem} {ix : Nat}
    (h : ∀ i held, front[i]? = some held → held.item.compiledPattern = true → again (ix + i) = true)
    (rest : List HeldItem) (filters : Growing HeldItem) :
    copyLoop grow again mongoFilters ix (front ++ rest) filters =
      match pushAll grow HeldItem.destroyed filters (front.map fun held => HeldItem.compiled held.item) with
      | none => .undefined
      | some filters => copyLoop grow again mongoFilters (ix + front.length) rest filters := by
  induction front generalizing ix filters with
  | nil => rfl
  | cons held front ih =>
    have hfirst : HeldItem.fill (again ix) held.item = (true, HeldItem.compiled held.item) :=
      HeldItem.fill_of_ok fun hmark => h 0 held rfl hmark
    have hrest : ∀ i held, front[i]? = some held → held.item.compiledPattern = true → again (ix + 1 + i) = true := by
      intro i held' hheld hmark
      rw [Nat.add_assoc, Nat.add_comm 1 i]
      exact h (i + 1) held' hheld hmark
    rw [List.cons_append, copyLoop, hfirst, List.map_cons]
    dsimp only
    unfold pushAll
    rw [List.foldlM_cons]
    cases push grow HeldItem.destroyed filters (HeldItem.compiled held.item) with
    | none => rfl
    | some filters =>
      show copyLoop grow again mongoFilters (ix + 1) (front ++ rest) filters = _
      rw [ih hrest, List.length_cons, Nat.add_assoc, Nat.add_comm 1]
      rfl

/-- At the first expression that does not compile, the copying ends. -/
theorem exists_first_failure {items : List HeldItem}
    (h : ¬∀ ix held, items[ix]? = some held → held.item.compiledPattern = true → again ix = true) :
    ∃ front held rest, items = front ++ held :: rest ∧
      (∀ i f, front[i]? = some f → f.item.compiledPattern = true → again i = true) ∧
      held.item.compiledPattern = true ∧ again front.length = false := by
  classical
  have hsome : ∃ ix, ∃ held, items[ix]? = some held ∧ held.item.compiledPattern = true ∧ again ix = false := by
    push Not at h
    obtain ⟨ix, held, hheld, hmark, hfails⟩ := h
    exact ⟨ix, held, hheld, hmark, by simpa using hfails⟩
  obtain ⟨held, hheld, hmark, hfails⟩ := Nat.find_spec hsome
  have hmin := fun i => @Nat.find_min _ _ hsome i
  generalize Nat.find hsome = ix at hheld hfails hmin
  obtain ⟨hlt, rfl⟩ := List.getElem?_eq_some_iff.1 hheld
  have hlength : (items.take ix).length = ix := List.length_take_of_le (Nat.le_of_lt hlt)
  refine ⟨items.take ix, items[ix], items.drop (ix + 1), ?_, fun i f hf hmarked => ?_, hmark, by rwa [hlength]⟩
  · rw [← List.drop_eq_getElem_cons hlt, List.take_append_drop]
  · have hi : i < ix := by
      rw [← hlength]
      exact (List.getElem?_eq_some_iff.1 hf).1
    rw [List.getElem?_take_of_lt hi] at hf
    by_contra hno
    exact hmin i hi ⟨f, hf, hmarked, by simpa using hno⟩

section Source

variable {regexec : String → String → Bool} {filters : List StringFilterItem} {source : HeldFilter}

/-- The items of a filter, and which of their expressions are there. -/
theorem items_of_pushAll (hgrow : ∀ n, n < grow n) {v : Growing HeldItem}
    (h : pushAll grow HeldItem.destroyed (.empty HeldItem 0) (filters.map HeldItem.compiled) = some v) :
    v.items.map HeldItem.item = filters ∧ ∀ i held, v.items[i]? = some held → held.Intact ∧
      (held.item.compiledPattern = true →
        ((∃ pattern, held.expression = .live pattern) ↔ ¬GrownOver grow i v.items.length)) := by
  have hrun := pushAll_spec hgrow h
  have hlength : v.items.length = filters.length := by rw [hrun.length, List.length_map]
  have hspec : ∀ i held, v.items[i]? = some held → filters[i]? = some held.item ∧ held.Intact ∧
      (held.item.compiledPattern = true →
        ((∃ pattern, held.expression = .live pattern) ↔ ¬GrownOver grow i v.items.length)) := by
    intro i held hheld
    have hi : i < filters.length := by
      rw [← hlength]
      exact (List.getElem?_eq_some_iff.1 hheld).1
    obtain ⟨k, y, hy, htimes, hk⟩ := hrun.items i (HeldItem.compiled filters[i]) (by simp [hi])
    rw [hheld] at hy
    cases hy
    obtain ⟨hitem, hintact, hlive⟩ := HeldItem.times_compiled htimes
    refine ⟨by rw [hitem, List.getElem?_eq_getElem hi], hintact, fun hmark => ?_⟩
    rw [hitem] at hmark
    rw [hlive hmark, hk, hrun.length]
  refine ⟨List.ext_getElem? fun i => ?_, fun i held hheld => (hspec i held hheld).2⟩
  rw [List.getElem?_map]
  cases hheld : v.items[i]? with
  | none =>
    rw [List.getElem?_eq_none_iff, hlength] at hheld
    rw [Option.map_none, List.getElem?_eq_none hheld]
  | some held => rw [Option.map_some, (hspec i held hheld).1]

/-- A match that comes to an end does so with fresher items as well. -/
theorem matchHeld_of_fresher {items items' : List HeldItem} (h : List.Forall₂ HeldItem.Fresher items items')
    {cer : ContextElementResponse} {b : Bool} (hb : matchHeld regexec items cer = some b) :
    matchHeld regexec items' cer = some b := by
  induction h with
  | nil => exact hb
  | @cons x y items items' hxy _ ih =>
    have hturn : ∀ t, x.turn regexec cer = some t → y.turn regexec cer = some t := by
      intro t ht
      rw [HeldItem.turn] at ht ⊢
      rw [← hxy.item]
      by_cases hop : x.item.op = .SfopMatchPattern
      · rw [if_pos hop] at ht ⊢
        cases hca : x.item.leftAttribute cer with
        | none =>
          rw [hca] at ht
          exact ht
        | some ca =>
          rw [hca] at ht
          dsimp only at ht ⊢
          split at ht
          · rename_i hstring
            rw [if_pos hstring]
            exact ht
          · rename_i hstring
            rw [if_neg hstring]
            rcases hxy.expression with heq | ⟨hfreed, -⟩
            · rw [heq]
              exact ht
            · rw [hfreed] at ht
              cases ht
      · rw [if_neg hop] at ht ⊢
        exact ht
    obtain ⟨t, ht, hb⟩ := Option.bind_eq_some_iff.1 hb
    rw [matchHeld, hturn t ht]
    cases t with
    | none => exact ih hb
    | some b' => exact hb

/-- The items that a parsed filter has. -/
theorem parseHeld_cases {lib : CLibrary} {q : String} (h : parseHeld grow lib q = some source) :
    ∃ filters : List StringFilterItem, (∀ item ∈ filters, item.Marked) ∧
      pushAll grow HeldItem.destroyed (.empty HeldItem 0) (filters.map HeldItem.compiled) = some source.filters := by
  unfold parseHeld at h
  cases hparse : parse lib q with
  | error e =>
    rw [hparse] at h
    cases h
  | ok result =>
    obtain ⟨filters, mongoFilters⟩ := result
    rw [hparse] at h
    obtain ⟨v, hv, h⟩ := Option.bind_eq_some_iff.1 h
    cases h
    refine ⟨filters, fun item hitem => ?_, hv⟩
    have hgives : ∀ {pieces : List (List Char)} {items : List StringFilterItem},
        List.Forall₂ (GivesItem lib) pieces items → ∀ item ∈ items, item.Marked := by
      intro pieces items hall
      induction hall with
      | nil => simp
      | cons hgives _ ih => exact List.forall_mem_cons.2 ⟨StringFilterItem.parse_marked hgives.2, ih⟩
    exact hgives (parse_ok_iff.1 hparse).2.1 item hitem

/-- The filter uses an expression that was freed for some response, if the first pattern is one that the vector grows
over and that is reached. -/
theorem undefined_iff (hgrow : ∀ n, n < grow n) (hmarked : ∀ item ∈ filters, item.Marked) {v : Growing HeldItem}
    (h : pushAll grow HeldItem.destroyed (.empty HeldItem 0) (filters.map HeldItem.compiled) = some v) :
    (∃ cer, matchHeld regexec v.items cer = none) ↔ FreedReached grow regexec filters := by
  obtain ⟨hitems, hspec⟩ := items_of_pushAll hgrow h
  have hlength : v.items.length = filters.length := by rw [← hitems, List.length_map]
  simp only [matchHeld_eq_none_iff]
  constructor
  · rintro ⟨cer, front, held, rest, ca, hsplit, hfront, hop, hca, hstring, hexpression⟩
    have hheld : v.items[front.length]? = some held := by simp [hsplit]
    have hmem : held.item ∈ filters := by
      rw [← hitems, hsplit]
      simp
    have hgrown := (hspec _ _ hheld).2 ((hmarked _ hmem).2 hop)
    refine ⟨front.map HeldItem.item, held.item, rest.map HeldItem.item, cer, ca, ?_, ?_, hop, hca, hstring, ?_⟩
    · rw [← hitems, hsplit]
      simp
    · exact List.forall_mem_map.2 hfront
    · rw [List.length_map, ← hlength]
      by_contra hno
      obtain ⟨pattern, hlive⟩ := hgrown.2 hno
      exact hexpression pattern hlive
  · rintro ⟨front, pattern, rest, cer, ca, hsplit, hfront, hop, hca, hstring, hgrown⟩
    rw [← hitems, List.map_eq_append_iff] at hsplit
    obtain ⟨heldFront, heldRest, hsplit, rfl, hback⟩ := hsplit
    obtain ⟨held, heldRest, rfl, rfl, rfl⟩ := List.map_eq_cons_iff.1 hback
    have hheld : v.items[heldFront.length]? = some held := by simp [hsplit]
    have hmem : held.item ∈ filters := by
      rw [← hitems, hsplit]
      simp
    refine ⟨cer, heldFront, held, heldRest, ca, hsplit, List.forall_mem_map.1 hfront, hop, hca, hstring, fun p hlive => ?_⟩
    have hnot := ((hspec _ _ hheld).2 ((hmarked _ hmem).2 hop)).1 ⟨p, hlive⟩
    rw [hlength] at hnot
    rw [List.length_map] at hgrown
    exact hnot hgrown

/-- A copy to a vector of a capacity that it can have. -/
theorem fill_right_iff (hgrow : ∀ n, n < grow n) {lib : CLibrary} {q : String} (h : parseHeld grow lib q = some source)
    (j : Nat) :
    CopyRight again regexec source (fill grow again (capacityAt grow j) source) ↔
      CompilesAgain again source ∧ ¬FreedReached grow regexec (source.filters.items.map HeldItem.item) := by
  obtain ⟨filters, hmarked, hrun⟩ := parseHeld_cases h
  obtain ⟨hitems, -⟩ := items_of_pushAll hgrow hrun
  have hundefined := @undefined_iff grow regexec filters hgrow hmarked source.filters hrun
  rw [hitems, ← hundefined]
  -- the copies of the first items
  have hcopies : ∀ front rest : List HeldItem, source.filters.items = front ++ rest →
      ∃ u w, pushAll grow HeldItem.destroyed (.empty HeldItem (capacityAt grow j))
          (front.map fun held => HeldItem.compiled held.item) = some w ∧
        List.Forall₂ HeldItem.Fresher u.items w.items ∧ (rest = [] → u = source.filters) := by
    intro front rest hsplit
    have htexts : filters.map HeldItem.compiled =
        (front.map fun held => HeldItem.compiled held.item) ++ rest.map fun held => HeldItem.compiled held.item := by
      rw [← List.map_append, ← hsplit, ← hitems, List.map_map]
      rfl
    unfold pushAll at hrun
    rw [htexts, List.foldlM_append] at hrun
    obtain ⟨u, hu, hlast⟩ := Option.bind_eq_some_iff.1 hrun
    obtain ⟨w, hw, hfresher⟩ := pushAll_simulates hgrow HeldItem.fresher_simulates j
      (List.forall₂_map_left_iff.2 (List.forall₂_map_right_iff.2
        (List.forall₂_same.2 fun held _ => HeldItem.fresher_compiled held.item))) hu
    refine ⟨u, w, hw, hfresher, fun hnil => ?_⟩
    rw [hnil] at hlast
    cases hlast
    rfl
  constructor
  · intro hright
    have hcompiles : CompilesAgain again source := by
      by_contra hno
      obtain ⟨front, held, rest, hsplit, hfront, hmark, hfails⟩ := exists_first_failure hno
      obtain ⟨-, w, hw, -⟩ := hcopies front (held :: rest) hsplit
      have hfailed : fill grow again (capacityAt grow j) source = .failed { item := held.item, expression := .absent } := by
        have hfront' : ∀ i f, front[i]? = some f → f.item.compiledPattern = true → again (0 + i) = true := by
          intro i f hf hmarked
          rw [Nat.zero_add]
          exact hfront i f hf hmarked
        rw [fill, hsplit, copyLoop_append hfront', hw]
        dsimp only
        rw [Nat.zero_add, copyLoop, hfails, HeldItem.fill_of_failure hmark]
      have hunmarked := hright.unmarked _ hfailed
      rw [hmark] at hunmarked
      cases hunmarked
    refine ⟨hcompiles, ?_⟩
    rintro ⟨cer, hcer⟩
    obtain ⟨copy, -, -, hsame⟩ := hright.same hcompiles
    obtain ⟨b, -, hb⟩ := hsame cer
    rw [hcer] at hb
    cases hb
  · rintro ⟨hcompiles, hdefined⟩
    obtain ⟨u, w, hw, hfresher, hlast⟩ := hcopies source.filters.items [] (List.append_nil _).symm
    rw [hlast rfl] at hfresher
    have hdone : fill grow again (capacityAt grow j) source = .done { filters := w, mongoFilters := source.mongoFilters } := by
      have hall : ∀ i held, source.filters.items[i]? = some held → held.item.compiledPattern = true →
          again (0 + i) = true := by
        intro i held hheld hmark
        rw [Nat.zero_add]
        exact hcompiles i held hheld hmark
      have happend := @copyLoop_append grow again source.mongoFilters _ _ hall [] (.empty HeldItem (capacityAt grow j))
      rw [List.append_nil, hw] at happend
      rw [fill, happend]
      rfl
    refine ⟨fun _ => ⟨_, hdone, rfl, fun cer => ?_⟩, fun left hfailed => ?_⟩
    · cases hmatch : matchHeld regexec source.filters.items cer with
      | none => exact absurd ⟨cer, hmatch⟩ hdefined
      | some b => exact ⟨b, matchHeld_of_fresher hfresher hmatch, rfl⟩
    · rw [hdone] at hfailed
      cases hfailed

/-- The copies of a filter are right if and only if all expressions compile again, and the vector does not grow over the
first pattern, unless no response reaches it. -/
theorem copy_right_iff (hgrow : ∀ n, n < grow n) {lib : CLibrary} {q : String} (h : parseHeld grow lib q = some source) :
    (CopyRight again regexec source (clone grow again source) ∧
        ∀ j, CopyRight again regexec source (fill grow again (capacityAt grow j) source)) ↔
      CompilesAgain again source ∧ ¬FreedReached grow regexec (source.filters.items.map HeldItem.item) := by
  constructor
  · rintro ⟨-, hfill⟩
    exact (fill_right_iff hgrow h 0).1 (hfill 0)
  · intro hcondition
    have hfill : ∀ j, CopyRight again regexec source (fill grow again (capacityAt grow j) source) := fun j =>
      (fill_right_iff hgrow h j).2 hcondition
    exact ⟨hfill 0, hfill⟩

end Source

end Copies

/-- A storage twice as large, as the vectors of the standard library of GNU take it. -/
def doubled (n : Nat) : Nat := if n = 0 then 1 else 2 * n

theorem lt_doubled (n : Nat) : n < doubled n := by
  unfold doubled
  split <;> omega

/-- The item of `a~=x`. -/
def patternItem : StringFilterItem :=
  { left := "a", op := .SfopMatchPattern, numberValue := .fin (-1), stringValue := "x", compiledPattern := true }

theorem copy_right_iff_pattern_last : ∃ source, parseHeld doubled plainLibrary "b==1;a~=x" = some source ∧
    CopyRight (fun _ => true) plainRegexec source (clone doubled (fun _ => true) source) := by
  have hparsed : (parseHeld doubled plainLibrary "b==1;a~=x").map (fun source => source.filters.items.map HeldItem.item) =
      some [{ left := "b", op := .SfopEquals, valueType := .SfvtNumber, numberValue := .fin 1 },
        patternItem] := by decide +kernel
  obtain ⟨source, hsource, hitems⟩ := Option.map_eq_some_iff.1 hparsed
  refine ⟨source, hsource, ((copy_right_iff lt_doubled hsource).2 ⟨fun _ _ _ _ => rfl, ?_⟩).1⟩
  rw [hitems]
  rintro ⟨front, pattern, rest, cer, ca, hsplit, -, hop, -, -, m, hlt, hlt'⟩
  -- the first item is no pattern
  have hfront : front = [] := by
    refine List.length_eq_zero_iff.1 ?_
    simp only [List.length_cons, List.length_nil] at hlt'
    omega
  rw [hfront, List.nil_append, List.cons.injEq] at hsplit
  rw [← hsplit.1] at hop
  cases hop

/-- The expression of the first item was freed when the second one was added; and the mark of an item stays when its
expression does not compile again. -/
theorem copies_of_patterns :
    (∃ source, parseHeld doubled plainLibrary "a~=x;b==1" = some source ∧
      ¬CopyRight (fun _ => true) plainRegexec source (clone doubled (fun _ => true) source)) ∧
    ∃ source, parseHeld doubled plainLibrary "a~=x" = some source ∧
      ¬CopyRight (fun _ => false) plainRegexec source (clone doubled (fun _ => false) source) := by
  constructor
  · have hparsed : (parseHeld doubled plainLibrary "a~=x;b==1").map
        (fun source => matchHeld plainRegexec source.filters.items entityWithB2) = some none := by decide +kernel
    obtain ⟨source, hsource, hmatch⟩ := Option.map_eq_some_iff.1 hparsed
    refine ⟨source, hsource, fun hright => ?_⟩
    obtain ⟨copy, -, -, hsame⟩ := hright.same fun _ _ _ _ => rfl
    obtain ⟨b, -, hb⟩ := hsame entityWithB2
    rw [hmatch] at hb
    cases hb
  · have hparsed : (parseHeld doubled plainLibrary "a~=x").map (fun source => source.filters.items) =
        some [HeldItem.compiled patternItem] := by decide +kernel
    obtain ⟨source, hsource, hitems⟩ := Option.map_eq_some_iff.1 hparsed
    refine ⟨source, hsource, fun hright => ?_⟩
    have hunmarked := hright.unmarked ⟨patternItem, .absent⟩ (by rw [clone, hitems]; rfl)
    cases hunmarked

end StringFilter

end OrionBroker
