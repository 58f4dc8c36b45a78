import OrionBroker.ContextAttribute

/-!
# Attributes as members of an object (`ContextAttributeVector.cpp`)

With `attributeFormat=object` the names of the attributes become the keys of an object, so `render` first takes the
attributes with names already used out of the vector.  The loop goes to the next index also when it erases an element,
and the element that has moved to the index is neither looked at nor remembered.  An empty name is never found by
`addedLookup`, which returns the name.
-/

namespace OrionBroker

def addedLookup (added : List String) (value : String) : String := if value ∈ added then value else ""

/-- The loop of `render` over the vector that it shortens. -/
def purgeLoop (vec : List ContextAttribute) (ix : Nat) (added : List String) : List ContextAttribute :=
  if h : ix < vec.length then
    if addedLookup added vec[ix].name = "" then purgeLoop vec (ix + 1) (added ++ [vec[ix].name])
    else purgeLoop (vec.eraseIdx ix) (ix + 1) added
  else vec
termination_by vec.length - ix
decreasing_by
  · omega
  · rw [List.length_eraseIdx_of_lt h]
    omega

/-- "Remove attributes with attribute names already used". -/
def purge (vec : List ContextAttribute) : List ContextAttribute := purgeLoop vec 0 []

/-! ### What is meant -/

/-- The attributes whose names occur neither in `before` nor in front of them. -/
def firstsAfter (before : List String) : List ContextAttribute → List ContextAttribute
  | [] => []
  | ca :: vec => if ca.name ∈ before then firstsAfter before vec else ca :: firstsAfter (before ++ [ca.name]) vec

theorem name_not_mem_of_mem_firstsAfter {before : List String} {vec : List ContextAttribute} {ca : ContextAttribute}
    (h : ca ∈ firstsAfter before vec) : ca.name ∉ before := by
  induction vec generalizing before with
  | nil => cases h
  | cons first vec ih =>
    rw [firstsAfter] at h
    split at h
    · exact ih h
    · rename_i hfirst
      rcases List.mem_cons.1 h with rfl | h
      · exact hfirst
      · exact fun hmem => ih h (List.mem_append_left _ hmem)

/-- The names are those of the vector, each of them once. -/
theorem nodup_firstsAfter (before : List String) (vec : List ContextAttribute) :
    ((firstsAfter before vec).map ContextAttribute.name).Nodup := by
  induction vec generalizing before with
  | nil => exact List.nodup_nil
  | cons ca vec ih =>
    rw [firstsAfter]
    split
    · exact ih before
    · rw [List.map_cons, List.nodup_cons]
      refine ⟨?_, ih _⟩
      rw [List.mem_map]
      rintro ⟨ca', hmem, hname⟩
      exact name_not_mem_of_mem_firstsAfter hmem (by simp [hname])

theorem firstsAfter_sublist (before : List String) (vec : List ContextAttribute) : (firstsAfter before vec).Sublist vec := by
  induction vec generalizing before with
  | nil => exact .slnil
  | cons ca vec ih =>
    rw [firstsAfter]
    split
    · exact (ih before).cons _
    · exact (ih _).cons_cons _

/-- The first attribute with a name is among them. -/
theorem mem_firstsAfter_append {before : List String} (front : List ContextAttribute) {ca : ContextAttribute}
    (hbefore : ca.name ∉ before) (hfront : ca.name ∉ front.map ContextAttribute.name) (rest : List ContextAttribute) :
    ca ∈ firstsAfter before (front ++ ca :: rest) := by
  induction front generalizing before with
  | nil =>
    rw [List.nil_append, firstsAfter, if_neg hbefore]
    exact List.mem_cons_self
  | cons first front ih =>
    rw [List.map_cons, List.mem_cons, not_or] at hfront
    rw [List.cons_append, firstsAfter]
    split
    · exact ih hbefore hfront.2
    · exact List.mem_cons_of_mem _ (ih (by simp [hbefore, hfront.1]) hfront.2)

/-- The vector has for each name its first attribute, in the order of the vector. -/
def KeepsFirsts (vec result : List ContextAttribute) : Prop :=
  (result.map ContextAttribute.name).Nodup ∧ result = firstsAfter [] vec

theorem KeepsFirsts.mem_of_first {front rest result : List ContextAttribute} {ca : ContextAttribute}
    (h : KeepsFirsts (front ++ ca :: rest) result) (hfront : ca.name ∉ front.map ContextAttribute.name) :
    ca ∈ result ∧ result.Sublist (front ++ ca :: rest) := by
  rw [h.2]
  exact ⟨mem_firstsAfter_append front List.not_mem_nil hfront rest, firstsAfter_sublist [] _⟩

/-! ### The loop -/

/-- What the loop leaves of the elements from the index on. -/
def passed (added : List String) : List ContextAttribute → List ContextAttribute
  | [] => []
  | ca :: vec =>
    if addedLookup added ca.name = "" then ca :: passed (added ++ [ca.name]) vec
    else
      match vec with
      | [] => []
      | next :: vec => next :: passed added vec

theorem passed_of_kept {added : List String} {ca : ContextAttribute} (h : addedLookup added ca.name = "")
    (vec : List ContextAttribute) : passed added (ca :: vec) = ca :: passed (added ++ [ca.name]) vec := by
  rw [passed.eq_def]
  exact if_pos h

theorem passed_of_erased {added : List String} {ca : ContextAttribute} (h : addedLookup added ca.name ≠ "")
    (vec : List ContextAttribute) : passed added (ca :: vec) = vec.take 1 ++ passed added (vec.drop 1) := by
  rw [passed.eq_def]
  refine (if_neg h).trans ?_
  cases vec <;> rfl

theorem purgeLoop_eq (vec : List ContextAttribute) (ix : Nat) (added : List String) :
    purgeLoop vec ix added = vec.take ix ++ passed added (vec.drop ix) := by
  induction vec, ix, added using purgeLoop.induct with
  | case1 vec ix added h hkept ih =>
    rw [purgeLoop, dif_pos h, if_pos hkept, ih, List.drop_eq_getElem_cons h, passed_of_kept hkept,
      List.take_succ_eq_append_getElem h, List.append_assoc]
    rfl
  | case2 vec ix added h herased ih =>
    rw [purgeLoop, dif_pos h, if_neg herased, ih, List.drop_eq_getElem_cons h]
    have herase : vec.eraseIdx ix = vec.take ix ++ vec.drop (ix + 1) := List.eraseIdx_eq_take_drop_succ _ _
    have hlength : (vec.take ix).length = ix := List.length_take_of_le h.le
    have htake : (vec.take ix).take (ix + 1) = vec.take ix := List.take_of_length_le (by omega)
    have hdrop : (vec.take ix).drop (ix + 1) = [] := List.drop_eq_nil_of_le (by omega)
    rw [herase, passed_of_erased herased, List.take_append, List.drop_append, htake, hdrop, hlength,
      Nat.add_sub_cancel_left, List.nil_append, List.append_assoc]
  | case3 vec ix added h =>
    rw [purgeLoop, dif_neg h, List.drop_eq_nil_of_le (not_lt.1 h), List.take_of_length_le (not_lt.1 h), passed,
      List.append_nil]

theorem purge_eq (vec : List ContextAttribute) : purge vec = passed [] vec := by
  rw [purge, purgeLoop_eq, List.take_zero, List.drop_zero, List.nil_append]

theorem addedLookup_eq_empty {added : List String} {name : String} :
    addedLookup added name = "" ↔ name ∈ added → name = "" := by
  unfold addedLookup
  split
  · rename_i hmem
    exact ⟨fun h _ => h, fun h => h hmem⟩
  · rename_i hmem
    exact iff_of_true rfl fun h => absurd h hmem

/-- A name that is not remembered is left in the vector. -/
theorem mem_names_passed {added : List String} {vec : List ContextAttribute} {name : String}
    (hmem : name ∈ vec.map ContextAttribute.name) (hadded : name ∉ added) :
    name ∈ (passed added vec).map ContextAttribute.name := by
  induction added, vec using passed.induct with
  | case1 added => cases hmem
  | case2 added ca vec hkept ih =>
    rw [passed_of_kept hkept, List.map_cons, List.mem_cons]
    rw [List.map_cons, List.mem_cons] at hmem
    by_cases hname : name = ca.name
    · exact .inl hname
    · exact .inr (ih (hmem.resolve_left hname) (by simp [hadded, hname]))
  | case3 added ca herased =>
    rw [List.map_cons, List.mem_cons] at hmem
    rcases hmem with hname | hmem
    · rw [addedLookup_eq_empty, ← hname] at herased
      exact absurd (fun h => absurd h hadded) herased
    · cases hmem
  | case4 added ca herased next vec ih =>
    rw [List.map_cons, List.map_cons, List.mem_cons, List.mem_cons] at hmem
    rw [passed_of_erased herased]
    rcases hmem with hname | hname | hmem
    · rw [addedLookup_eq_empty, ← hname] at herased
      exact absurd (fun h => absurd h hadded) herased
    · simp [hname]
    · simp only [List.take_succ_cons, List.take_zero, List.drop_succ_cons, List.drop_zero, List.cons_append,
        List.nil_append, List.map_cons, List.mem_cons]
      exact .inr (ih hmem hadded)

/-! ### When the loop is right -/

/-- In names that stand behind others, no name follows directly on a repeated one unless it occurs only once, and the
empty name is not repeated. -/
structure Separated (before names : List String) : Prop where
  alone : ∀ front name next rest, names = front ++ name :: next :: rest → name ∈ before ++ front →
    next ∉ before ++ front ∧ next ∉ rest
  named : ∀ front rest, names = front ++ "" :: rest → "" ∉ before ++ front

theorem separated_cons_of_new {before names : List String} {name : String} (h : name ∉ before) :
    Separated before (name :: names) ↔ Separated (before ++ [name]) names := by
  constructor
  · rintro ⟨halone, hnamed⟩
    refine ⟨?_, ?_⟩
    · intro front name' next rest hsplit hmem
      have := halone (name :: front) name' next rest (by rw [hsplit]; rfl) (by simpa using hmem)
      simpa using this
    · intro front rest hsplit
      have := hnamed (name :: front) rest (by rw [hsplit]; rfl)
      simpa using this
  · rintro ⟨halone, hnamed⟩
    refine ⟨?_, ?_⟩
    · intro front name' next rest hsplit hmem
      cases front with
      | nil =>
        rw [List.nil_append, List.cons.injEq] at hsplit
        rw [List.append_nil, ← hsplit.1] at hmem
        exact absurd hmem h
      | cons first front =>
        rw [List.cons_append, List.cons.injEq] at hsplit
        have := halone front name' next rest hsplit.2 (by simpa [hsplit.1] using hmem)
        simpa [hsplit.1] using this
    · intro front rest hsplit
      cases front with
      | nil =>
        rw [List.nil_append, List.cons.injEq] at hsplit
        rwa [List.append_nil, ← hsplit.1]
      | cons first front =>
        rw [List.cons_append, List.cons.injEq] at hsplit
        have := hnamed front rest hsplit.2
        simpa [hsplit.1] using this

theorem separated_cons_of_repeated {before names : List String} {name next : String} (h : name ∈ before) :
    Separated before (name :: next :: names) ↔
      name ≠ "" ∧ next ∉ before ∧ next ∉ names ∧ Separated (before ++ [next]) names := by
  constructor
  · rintro ⟨halone, hnamed⟩
    obtain ⟨hbefore, hrest⟩ := halone [] name next names rfl (by simpa using h)
    refine ⟨?_, by simpa using hbefore, hrest, ?_, ?_⟩
    · rintro rfl
      exact hnamed [] (next :: names) rfl (by simpa using h)
    · intro front name' next' rest hsplit hmem
      have := halone (name :: next :: front) name' next' rest (by rw [hsplit]; rfl)
        (by simp only [List.mem_append, List.mem_cons, List.not_mem_nil, or_false] at hmem ⊢; tauto)
      simp only [List.mem_append, List.mem_cons, List.not_mem_nil, or_false] at this ⊢
      tauto
    · intro front rest hsplit
      have := hnamed (name :: next :: front) rest (by rw [hsplit]; rfl)
      simp only [List.mem_append, List.mem_cons, List.not_mem_nil, or_false] at this ⊢
      tauto
  · rintro ⟨hne, hbefore, hnames, halone, hnamed⟩
    refine ⟨?_, ?_⟩
    · intro front name' next' rest hsplit hmem
      rcases front with _ | ⟨first, _ | ⟨second, front⟩⟩
      · simp only [List.nil_append, List.cons.injEq] at hsplit
        rw [← hsplit.2.1, ← hsplit.2.2]
        exact ⟨by simpa using hbefore, hnames⟩
      · simp only [List.cons_append, List.nil_append, List.cons.injEq] at hsplit
        rw [← hsplit.1, ← hsplit.2.1] at hmem
        rcases List.mem_append.1 hmem with hmem | hmem
        · exact absurd hmem hbefore
        · rw [List.mem_singleton.1 hmem] at hbefore
          exact absurd h hbefore
      · simp only [List.cons_append, List.cons.injEq] at hsplit
        obtain ⟨rfl, rfl, hsplit⟩ := hsplit
        simp only [List.mem_append, List.mem_cons] at hmem
        have hmem : name' ∈ before ++ [next] ++ front := by
          rcases hmem with hmem | rfl | rfl | hmem
          · simp [hmem]
          · simp [h]
          · simp
          · simp [hmem]
        have := halone front name' next' rest hsplit hmem
        simp only [List.mem_append, List.mem_cons, List.not_mem_nil, or_false, not_or] at this ⊢
        refine ⟨⟨this.1.1.1, ?_, this.1.1.2, this.1.2⟩, this.2⟩
        rintro rfl
        exact this.1.1.1 h
    · intro front rest hsplit
      rcases front with _ | ⟨first, _ | ⟨second, front⟩⟩
      · simp only [List.nil_append, List.cons.injEq] at hsplit
        exact absurd hsplit.1 hne
      · simp only [List.cons_append, List.nil_append, List.cons.injEq] at hsplit
        rw [← hsplit.1, ← hsplit.2.1, List.mem_append, List.mem_singleton, not_or]
        exact ⟨hbefore, fun heq => hbefore (heq ▸ h)⟩
      · simp only [List.cons_append, List.cons.injEq] at hsplit
        obtain ⟨rfl, rfl, hsplit⟩ := hsplit
        have := hnamed front rest hsplit
        simp only [List.mem_append, List.mem_cons, List.not_mem_nil, or_false, not_or] at this ⊢
        exact ⟨this.1.1, hne.symm, this.1.2, this.2⟩

theorem separated_singleton_of_repeated {before : List String} {name : String} (h : name ∈ before) :
    Separated before [name] ↔ name ≠ "" := by
  constructor
  · rintro ⟨-, hnamed⟩ rfl
    exact hnamed [] [] rfl (by simpa using h)
  · intro hne
    refine ⟨?_, ?_⟩
    · intro front name' next rest hsplit
      have := congrArg List.length hsplit
      simp at this
      omega
    · intro front rest hsplit
      rcases front with _ | ⟨first, front⟩
      · simp only [List.nil_append, List.cons.injEq] at hsplit
        exact absurd hsplit.1 hne
      · simp at hsplit

/-- The names that are remembered are, of those that come, the ones that have been. -/
theorem passed_eq_iff {before added : List String} {vec : List ContextAttribute}
    (h : ∀ name ∈ vec.map ContextAttribute.name, name ∈ added ↔ name ∈ before) :
    passed added vec = firstsAfter before vec ↔ Separated before (vec.map ContextAttribute.name) := by
  induction added, vec using passed.induct generalizing before with
  | case1 added =>
    refine iff_of_true rfl ⟨?_, ?_⟩
    · intro front name next rest hsplit
      simp at hsplit
    · intro front rest hsplit
      simp at hsplit
  | case2 added ca vec hkept ih =>
    rw [List.map_cons, List.forall_mem_cons] at h
    rw [passed_of_kept hkept, List.map_cons, firstsAfter]
    by_cases hbefore : ca.name ∈ before
    · -- an empty name is kept again
      have hempty : ca.name = "" := addedLookup_eq_empty.1 hkept (h.1.2 hbefore)
      rw [if_pos hbefore]
      refine iff_of_false ?_ ?_
      · intro heq
        have hmem : ca ∈ firstsAfter before vec := heq ▸ List.mem_cons_self
        exact name_not_mem_of_mem_firstsAfter hmem hbefore
      · rintro ⟨-, hnamed⟩
        refine hnamed [] (vec.map ContextAttribute.name) (by rw [hempty]; rfl) ?_
        rwa [List.append_nil, ← hempty]
    · have hrest : ∀ name ∈ vec.map ContextAttribute.name, name ∈ added ++ [ca.name] ↔ name ∈ before ++ [ca.name] := by
        intro name hname
        simp [h.2 name hname]
      rw [if_neg hbefore, separated_cons_of_new hbefore, List.cons.injEq, ← ih hrest]
      exact and_iff_right rfl
  | case3 added ca herased =>
    rw [List.map_cons, List.forall_mem_cons] at h
    rw [addedLookup_eq_empty, Classical.not_imp] at herased
    have hbefore := h.1.1 herased.1
    have hlookup : addedLookup added ca.name ≠ "" := by rw [Ne, addedLookup_eq_empty, Classical.not_imp]; exact herased
    rw [passed_of_erased hlookup, firstsAfter, if_pos hbefore, List.map_cons, List.map_nil,
      separated_singleton_of_repeated hbefore]
    exact iff_of_true rfl herased.2
  | case4 added ca herased next vec ih =>
    have hlookup : addedLookup added ca.name ≠ "" := herased
    rw [List.map_cons, List.map_cons, List.forall_mem_cons, List.forall_mem_cons] at h
    rw [addedLookup_eq_empty, Classical.not_imp] at herased
    have hbefore := h.1.1 herased.1
    rw [passed_of_erased hlookup, firstsAfter, if_pos hbefore, List.map_cons, List.map_cons,
      separated_cons_of_repeated hbefore, firstsAfter]
    simp only [List.take_succ_cons, List.take_zero, List.drop_succ_cons, List.drop_zero, List.cons_append,
      List.nil_append]
    by_cases hnext : next.name ∈ before
    · rw [if_pos hnext]
      refine iff_of_false ?_ fun hright => hright.2.1 hnext
      intro heq
      have hmem : next ∈ firstsAfter before vec := heq ▸ List.mem_cons_self
      exact name_not_mem_of_mem_firstsAfter hmem hnext
    · rw [if_neg hnext, List.cons.injEq]
      by_cases hagain : next.name ∈ vec.map ContextAttribute.name
      · -- the element that was passed over is not remembered
        refine iff_of_false ?_ fun hright => hright.2.2.1 hagain
        rintro ⟨-, heq⟩
        have hadded : next.name ∉ added := fun hmem => hnext (h.2.1.1 hmem)
        have hmem := mem_names_passed hagain hadded
        rw [heq, List.mem_map] at hmem
        obtain ⟨ca', hmem, hname⟩ := hmem
        exact name_not_mem_of_mem_firstsAfter hmem (by simp [hname])
      · have hrest : ∀ name ∈ vec.map ContextAttribute.name, name ∈ added ↔ name ∈ before ++ [next.name] := by
          intro name hname
          have hne : name ≠ next.name := fun heq => hagain (heq ▸ hname)
          simp [h.2.2 name hname, hne]
        rw [ih hrest]
        tauto

/-- The loop keeps the first attribute of each name if and only if every name that follows directly on a repeated one
occurs only once, and the empty name is not repeated. -/
theorem purge_keepsFirsts_iff (vec : List ContextAttribute) :
    KeepsFirsts vec (purge vec) ↔ Separated [] (vec.map ContextAttribute.name) := by
  rw [KeepsFirsts, purge_eq, ← @passed_eq_iff [] [] vec fun name _ => Iff.rfl]
  constructor
  · exact And.right
  · intro heq
    exact ⟨heq ▸ nodup_firstsAfter [] vec, heq⟩

/-- An attribute `A` with this identifier among its metadata. -/
def identifiedA (id : String) : ContextAttribute :=
  { name := "A", type := "T", metadataVector := [{ name := NGSI_MD_ID, type := "string", stringValue := id }] }

/-- Of three attributes with one name the third is kept, too. -/
theorem third_attribute_kept :
    ¬KeepsFirsts [identifiedA "1", identifiedA "2", identifiedA "3"]
      (purge [identifiedA "1", identifiedA "2", identifiedA "3"]) := by
  rintro ⟨hnodup, -⟩
  rw [purge_eq] at hnodup
  revert hnodup
  decide

end OrionBroker
