import Mathlib.Data.List.Induction
import Mathlib.Data.List.Nodup
import Mathlib.Data.Option.Basic

/-!
# Lists with keys

A list whose elements have a key is read as a partial function of the key: `get` is the first element with a given
key.  `upsert` changes the element with a key, or adds a new one at the end.  A run of upserts with different keys acts
on each key by itself (`get_foldl_upsert`), so two lists that were built in different ways are compared key by key
(`matched_iff`).
-/

namespace KeyedList

section Get

variable {α κ : Type*} [DecidableEq κ]

/-- The first element with a given key. -/
def get (key : α → κ) (k : κ) (l : List α) : Option α := l.find? fun x => key x = k

variable {key : α → κ} {k : κ} {l : List α}

theorem get_cons (x : α) : get key k (x :: l) = if key x = k then some x else get key k l := by
  unfold get
  rw [List.find?_cons]
  by_cases h : key x = k <;> simp [h]

theorem get_append (l l' : List α) : get key k (l ++ l') = (get key k l).or (get key k l') := List.find?_append

theorem get_eq_none_iff : get key k l = none ↔ k ∉ l.map key := by
  simp [get]

theorem mem_of_get {x : α} (h : get key k l = some x) : x ∈ l ∧ key x = k :=
  ⟨List.mem_of_find?_eq_some h, by simpa using List.find?_some h⟩

/-- An element is found under its key if its key determines it. -/
theorem get_of_mem (hinj : ∀ x ∈ l, ∀ y ∈ l, key x = key y → x = y) {x : α} (h : x ∈ l) : get key (key x) l = some x := by
  rcases hg : get key (key x) l with _ | y
  · exact absurd (List.mem_map_of_mem h) (get_eq_none_iff.1 hg)
  · obtain ⟨hy, hk⟩ := mem_of_get hg
    rw [hinj y hy x h hk]

/-- An element is found under its key if no other element has it. -/
theorem get_of_nodup (hl : (l.map key).Nodup) {x : α} (h : x ∈ l) : get key (key x) l = some x :=
  get_of_mem (fun _ hx _ hy he => List.inj_on_of_nodup_map hl hx hy he) h

omit [DecidableEq κ] in
theorem mem_keys_filter {p : α → Bool} : k ∈ (l.filter p).map key ↔ ∃ x ∈ l, key x = k ∧ p x = true := by
  rw [List.mem_map]
  constructor
  · rintro ⟨x, hx, hk⟩
    exact ⟨x, (List.mem_filter.1 hx).1, hk, (List.mem_filter.1 hx).2⟩
  · rintro ⟨x, hx, hk, hp⟩
    exact ⟨x, List.mem_filter.2 ⟨hx, hp⟩, hk⟩

theorem filter_of_nodup (hl : (l.map key).Nodup) : (l.filter fun x => key x = k) = (get key k l).toList := by
  induction l with
  | nil => rfl
  | cons x l ih =>
    rw [List.map_cons, List.nodup_cons] at hl
    have ih := ih hl.2
    rw [get_cons]
    by_cases hk : key x = k
    · rw [get_eq_none_iff.2 (hk ▸ hl.1)] at ih
      rw [List.filter_cons_of_pos (by simpa using hk), ih, if_pos hk]
      rfl
    · rw [List.filter_cons_of_neg (by simpa using hk), ih, if_neg hk]

/-- How often a key occurs. -/
def times (key : α → κ) (k : κ) (l : List α) : Nat := l.countP fun x => key x = k

theorem times_cons (x : α) : times key k (x :: l) = times key k l + if key x = k then 1 else 0 := by
  simp [times, List.countP_cons]

theorem times_append (l l' : List α) : times key k (l ++ l') = times key k l + times key k l' := List.countP_append

theorem get_eq_none_iff_times : get key k l = none ↔ times key k l = 0 := by
  rw [get, times, List.find?_eq_none, List.countP_eq_zero]

/-- A key that occurs once at most is counted by looking for its element. -/
theorem times_of_nodup (hl : (l.map key).Nodup) : times key k l = if (get key k l).isSome then 1 else 0 := by
  rw [times, List.countP_eq_length_filter, filter_of_nodup hl]
  cases get key k l with
  | none => rfl
  | some x => rfl

theorem get_map {β : Type*} {f : β → α} (l : List β) : get key k (l.map f) = (get (key ∘ f) k l).map f := List.find?_map

/-- A filter that agrees on the elements with a given key keeps the first one or leaves none. -/
theorem get_filter {p : α → Bool} {b : Bool} (h : ∀ x ∈ l, key x = k → p x = b) :
    get key k (l.filter p) = if b then get key k l else none := by
  induction l with
  | nil => cases b <;> rfl
  | cons x l ih =>
    have ih' := ih fun y hy => h y (List.mem_cons_of_mem _ hy)
    by_cases hk : key x = k
    · have hp := h x (List.mem_cons_self ..) hk
      cases b with
      | true => simp [hp, get_cons, hk]
      | false => simpa [hp] using ih'
    · rw [get_cons, if_neg hk, ← ih', List.filter_cons]
      split
      · rw [get_cons, if_neg hk]
      · rfl

/-- If keys determine the elements, an element made from another with the same key is found by finding the other. -/
theorem get_filterMap {β : Type*} {f : β → Option α} {keyOf : β → κ} (hf : ∀ b a, f b = some a → key a = keyOf b)
    {bs : List β} (hbs : (bs.map keyOf).Nodup) : get key k (bs.filterMap f) = (get keyOf k bs).bind f := by
  induction bs with
  | nil => rfl
  | cons b bs ih =>
    rw [List.map_cons, List.nodup_cons] at hbs
    have ih := ih hbs.2
    rw [get_cons]
    by_cases hk : keyOf b = k
    · have hnone : get keyOf k bs = none := get_eq_none_iff.2 (hk ▸ hbs.1)
      rw [hnone] at ih
      rw [if_pos hk]
      cases hb : f b with
      | none => rw [List.filterMap_cons_none hb, ih]; simp [hb]
      | some a => rw [List.filterMap_cons_some hb, get_cons, if_pos ((hf b a hb).trans hk)]; simp [hb]
    · rw [if_neg hk, ← ih]
      cases hb : f b with
      | none => rw [List.filterMap_cons_none hb]
      | some a => rw [List.filterMap_cons_some hb, get_cons, if_neg (by rw [hf b a hb]; exact hk)]

/-- In a list made of one part for each element of `ts`, an element is found in the part it belongs to. -/
theorem get_flatMap {τ : Type*} [DecidableEq τ] {part : τ → List α} (group : κ → τ)
    (hp : ∀ t, ∀ x ∈ part t, group (key x) = t) (ts : List τ) :
    get key k (ts.flatMap part) = if group k ∈ ts then get key k (part (group k)) else none := by
  induction ts with
  | nil => rfl
  | cons t ts ih =>
    rw [List.flatMap_cons, get_append, ih]
    by_cases ht : group k = t
    · subst ht
      cases hg : get key k (part (group k)) with
      | none => simp
      | some x => simp
    · have hnone : get key k (part t) = none := by
        rw [get_eq_none_iff]
        intro hk
        obtain ⟨x, hx, rfl⟩ := List.mem_map.1 hk
        exact ht (hp t x hx)
      rw [hnone]
      simp [ht]

end Get

/-! ### Upserts -/

section Upsert

variable {α κ : Type*} [DecidableEq κ]

/-- The first element with the key is changed; if there is none, a new element is added. -/
def upsert (key : α → κ) (k : κ) (change : α → α) (new : α) : List α → List α
  | [] => [new]
  | x :: l => if key x = k then change x :: l else x :: upsert key k change new l

variable {key : α → κ} {change : α → α} {new : α} {k : κ}

theorem get_upsert (hc : ∀ x, key (change x) = key x) (hn : key new = k) (j : κ) (l : List α) :
    get key j (upsert key k change new l) = if j = k then some ((get key k l).elim new change) else get key j l := by
  induction l with
  | nil =>
    by_cases hj : j = k
    · subst hj
      simp [upsert, hn, get]
    · have hnj : key new ≠ j := by
        rw [hn]
        exact fun h => hj h.symm
      simp [upsert, hnj, hj, get]
  | cons x l ih =>
    unfold upsert
    by_cases hx : key x = k
    · rw [if_pos hx, get_cons, hc, get_cons, get_cons, hx]
      by_cases hj : j = k
      · simp [hj]
      · have hkj : k ≠ j := fun h => hj h.symm
        simp [hj, hkj]
    · rw [if_neg hx, get_cons, ih, get_cons, get_cons, if_neg hx]
      by_cases hj : j = k
      · subst hj
        simp [hx]
      · simp [hj]

theorem keys_upsert (hc : ∀ x, key (change x) = key x) (hn : key new = k) (l : List α) :
    (upsert key k change new l).map key = if k ∈ l.map key then l.map key else l.map key ++ [k] := by
  induction l with
  | nil => simp [upsert, hn]
  | cons x l ih =>
    unfold upsert
    by_cases hx : key x = k
    · simp [hx, hc]
    · have hk : k ∈ (x :: l).map key ↔ k ∈ l.map key := by
        rw [List.map_cons, List.mem_cons]
        exact or_iff_right fun h => hx h.symm
      rw [if_neg hx, List.map_cons, ih]
      by_cases hm : k ∈ l.map key
      · rw [if_pos hm, if_pos (hk.2 hm), List.map_cons]
      · rw [if_neg hm, if_neg (mt hk.1 hm), List.map_cons, List.cons_append]

theorem nodup_upsert (hc : ∀ x, key (change x) = key x) (hn : key new = k) {l : List α} (h : (l.map key).Nodup) :
    ((upsert key k change new l).map key).Nodup := by
  rw [keys_upsert hc hn]
  split
  · exact h
  · rename_i hk
    rw [List.nodup_append]
    refine ⟨h, List.nodup_singleton k, ?_⟩
    intro x hx y hy he
    rw [List.mem_singleton.1 hy] at he
    rw [he] at hx
    exact hk hx

theorem forall_mem_upsert {p : α → Prop} {l : List α} (hl : ∀ x ∈ l, p x) (hc : ∀ x, p x → p (change x)) (hn : p new) :
    ∀ x ∈ upsert key k change new l, p x := by
  induction l with
  | nil =>
    intro x hx
    rw [List.mem_singleton.1 hx]
    exact hn
  | cons y l ih =>
    rw [List.forall_mem_cons] at hl
    unfold upsert
    split
    · exact List.forall_mem_cons.2 ⟨hc y hl.1, hl.2⟩
    · exact List.forall_mem_cons.2 ⟨hl.1, ih hl.2⟩

/-- A filter keeps an upsert if it keeps the element that is changed. -/
theorem filter_upsert {p : α → Bool} (hc : ∀ x, p (change x) = p x) (hn : p new = true) {l : List α}
    (hl : ∀ x, get key k l = some x → p x = true) :
    (upsert key k change new l).filter p = upsert key k change new (l.filter p) := by
  induction l with
  | nil => simp [upsert, hn]
  | cons x l ih =>
    unfold upsert
    rw [get_cons] at hl
    by_cases hx : key x = k
    · have hpx : p x = true := hl x (if_pos hx)
      simp [hx, hpx, hc]
    · rw [if_neg hx] at hl
      rw [if_neg hx, List.filter_cons, List.filter_cons, ih hl]
      split
      · exact (if_neg hx).symm
      · cases l.filter p <;> rfl

/-- A filter forgets an upsert if it drops the element that is changed. -/
theorem filter_upsert_of_dropped {p : α → Bool} (hc : ∀ x, p (change x) = p x) {x : α} {l : List α}
    (hl : get key k l = some x) (hx : p x = false) : (upsert key k change new l).filter p = l.filter p := by
  induction l with
  | nil => cases hl
  | cons y l ih =>
    unfold upsert
    rw [get_cons] at hl
    by_cases hy : key y = k
    · rw [if_pos hy] at hl
      cases hl
      simp [hy, hx, hc]
    · rw [if_neg hy] at hl
      rw [if_neg hy, List.filter_cons, List.filter_cons, ih hl]

end Upsert

/-! ### A run of upserts -/

section Run

variable {α β κ : Type*} [DecidableEq κ] {key : α → κ} {keyOf : β → κ} (change : β → α → α)
  {new : β → α}

theorem nodup_foldl_upsert (hc : ∀ b x, key (change b x) = key x) (hn : ∀ b, key (new b) = keyOf b) {l : List α}
    (h : (l.map key).Nodup) (bs : List β) :
    ((bs.foldl (fun l b => upsert key (keyOf b) (change b) (new b) l) l).map key).Nodup := by
  induction bs generalizing l with
  | nil => exact h
  | cons b bs ih => exact ih (nodup_upsert (hc b) (hn b) h)

/-- What holds of all elements, of changed and of new ones holds after the run. -/
theorem forall_mem_foldl_upsert {p : α → Prop} {bs : List β} {l : List α} (hl : ∀ x ∈ l, p x)
    (hc : ∀ b ∈ bs, ∀ x, p x → p (change b x)) (hn : ∀ b ∈ bs, p (new b)) :
    ∀ x ∈ bs.foldl (fun l b => upsert key (keyOf b) (change b) (new b) l) l, p x := by
  induction bs generalizing l with
  | nil => exact hl
  | cons b bs ih =>
    have hb := List.mem_cons_self (a := b) (l := bs)
    exact ih (forall_mem_upsert hl (hc b hb) (hn b hb)) (fun c hb => hc c (List.mem_cons_of_mem _ hb))
      fun c hb => hn c (List.mem_cons_of_mem _ hb)

/-- Upserts with different keys do not disturb each other. -/
theorem get_foldl_upsert (hc : ∀ b x, key (change b x) = key x) (hn : ∀ b, key (new b) = keyOf b) {bs : List β}
    (hbs : (bs.map keyOf).Nodup) (k : κ) (l : List α) :
    get key k (bs.foldl (fun l b => upsert key (keyOf b) (change b) (new b) l) l) =
      ((get keyOf k bs).map fun b => (get key k l).elim (new b) (change b)).or (get key k l) := by
  induction bs generalizing l with
  | nil => rfl
  | cons b bs ih =>
    rw [List.map_cons, List.nodup_cons] at hbs
    rw [List.foldl_cons, ih hbs.2, get_upsert (hc b) (hn b), get_cons]
    by_cases hk : keyOf b = k
    · subst hk
      rw [get_eq_none_iff.2 hbs.1, if_pos rfl, if_pos rfl]
      rfl
    · rw [if_neg (fun h => hk h.symm), if_neg hk]

/-- What is found under a key after a run was changed by all elements of that key, beginning with the first one. -/
theorem get_group {init : β → α} (hc : ∀ b x, key (change b x) = key x) (hn : ∀ b, key (new b) = keyOf b)
    (hinit : ∀ b, new b = change b (init b)) (k : κ) (bs : List β) :
    get key k (bs.foldl (fun l b => upsert key (keyOf b) (change b) (new b) l) []) =
      (get keyOf k bs).map fun b => (bs.filter fun c => keyOf c = k).foldl (fun x c => change c x) (init b) := by
  induction bs using List.reverseRecOn with
  | nil => rfl
  | append_singleton bs b ih =>
    rw [List.foldl_append, List.foldl_cons, List.foldl_nil, get_upsert (hc b) (hn b), get_append, List.filter_append]
    by_cases hk : k = keyOf b
    · subst hk
      rw [if_pos rfl, ih]
      cases hg : get keyOf (keyOf b) bs with
      | none =>
        -- the first element of its key
        have hnone : (bs.filter fun c => keyOf c = keyOf b) = [] := by
          rw [List.filter_eq_nil_iff]
          intro c hc' he
          exact get_eq_none_iff.1 hg (List.mem_map.2 ⟨c, hc', of_decide_eq_true he⟩)
        simp [hnone, get, hinit]
      | some c => simp [List.foldl_append]
    · have hk' : keyOf b ≠ k := fun h => hk h.symm
      rw [if_neg hk, ih]
      simp [get, hk']

end Run

/-! ### Changes -/

section Modify

variable {α κ : Type*} [DecidableEq κ]

/-- The first element with the key is changed. -/
def modify (key : α → κ) (k : κ) (change : α → α) : List α → List α
  | [] => []
  | x :: l => if key x = k then change x :: l else x :: modify key k change l

variable {key : α → κ} {change : α → α} {k : κ}

theorem keys_modify (hc : ∀ x, key x = k → key (change x) = k) (l : List α) :
    (modify key k change l).map key = l.map key := by
  induction l with
  | nil => rfl
  | cons x l ih =>
    unfold modify
    split
    · rename_i hx
      rw [List.map_cons, List.map_cons, hc x hx, hx]
    · rw [List.map_cons, List.map_cons, ih]

/-- The elements with the key, of which the first is changed. -/
theorem filter_modify (hc : ∀ x, key x = k → key (change x) = k) (l : List α) :
    ((modify key k change l).filter fun x => key x = k) = modify key k change (l.filter fun x => key x = k) := by
  induction l with
  | nil => rfl
  | cons x l ih =>
    by_cases hx : key x = k
    · have hx' := hc x hx
      simp [modify, hx, hx']
    · have hmodify : modify key k change (x :: l) = x :: modify key k change l := if_neg hx
      rw [hmodify, List.filter_cons_of_neg (by simpa using hx), List.filter_cons_of_neg (by simpa using hx), ih]

/-- The keys of the elements that pass a test, if the test of the element that is changed does not change. -/
theorem keys_filter_modify {p : α → Bool} (hc : ∀ x, key x = k → key (change x) = k) {l : List α}
    (hp : ∀ x, get key k l = some x → p (change x) = p x) :
    ((modify key k change l).filter p).map key = (l.filter p).map key := by
  induction l with
  | nil => rfl
  | cons x l ih =>
    by_cases hx : key x = k
    · have hmodify : modify key k change (x :: l) = change x :: l := if_pos hx
      have hsame : p (change x) = p x := hp x (by rw [get_cons, if_pos hx])
      rw [hmodify, List.filter_cons, List.filter_cons, hsame]
      split
      · rw [List.map_cons, List.map_cons, hc x hx, hx]
      · rfl
    · have hmodify : modify key k change (x :: l) = x :: modify key k change l := if_neg hx
      have hrest := ih fun y hy => hp y (by rw [get_cons, if_neg hx, hy])
      rw [hmodify, List.filter_cons, List.filter_cons]
      split
      · rw [List.map_cons, List.map_cons, hrest]
      · exact hrest

theorem get_modify (hc : ∀ x, key x = k → key (change x) = k) (j : κ) (l : List α) :
    get key j (modify key k change l) = if j = k then (get key k l).map change else get key j l := by
  induction l with
  | nil => simp [modify, get]
  | cons x l ih =>
    unfold modify
    by_cases hx : key x = k
    · rw [if_pos hx, get_cons, get_cons, get_cons, hc x hx, if_pos hx]
      by_cases hj : j = k
      · subst hj
        simp
      · have hxj : key x ≠ j := fun h => hj (h.symm.trans hx)
        have hkj : k ≠ j := fun h => hj h.symm
        simp [hj, hxj, hkj]
    · rw [if_neg hx, get_cons, get_cons, get_cons, ih, if_neg hx]
      by_cases hj : j = k
      · subst hj
        simp [hx]
      · simp [hj]

theorem mem_modify {x : α} {l : List α} (h : x ∈ modify key k change l) : x ∈ l ∨ ∃ y ∈ l, key y = k ∧ x = change y := by
  induction l with
  | nil => cases h
  | cons y l ih =>
    unfold modify at h
    split at h
    · rename_i hy
      rcases List.mem_cons.1 h with rfl | h
      · exact Or.inr ⟨y, List.mem_cons_self, hy, rfl⟩
      · exact Or.inl (List.mem_cons_of_mem y h)
    · rcases List.mem_cons.1 h with rfl | h
      · exact Or.inl List.mem_cons_self
      · rcases ih h with h | ⟨z, hz, hk, he⟩
        · exact Or.inl (List.mem_cons_of_mem y h)
        · exact Or.inr ⟨z, List.mem_cons_of_mem y hz, hk, he⟩

theorem modify_of_get_eq_none {l : List α} (h : get key k l = none) : modify key k change l = l := by
  induction l with
  | nil => rfl
  | cons x l ih =>
    rw [get_cons] at h
    split at h
    · cases h
    · rename_i hx
      rw [modify, if_neg hx, ih h]

theorem modify_eq_map {l : List α} (hl : (l.map key).Nodup) :
    modify key k change l = l.map fun x => if key x = k then change x else x := by
  induction l with
  | nil => rfl
  | cons x l ih =>
    rw [List.map_cons, List.nodup_cons] at hl
    unfold modify
    by_cases hx : key x = k
    · have hrest : (l.map fun y => if key y = k then change y else y) = l := by
        refine (List.map_congr_left fun y hy => if_neg ?_).trans (List.map_id l)
        intro hk
        exact hl.1 (List.mem_map.2 ⟨y, hy, hk.trans hx.symm⟩)
      rw [if_pos hx, List.map_cons, if_pos hx, hrest]
    · rw [if_neg hx, List.map_cons, if_neg hx, ih hl.2]

/-- The same change for different keys, one after the other. -/
theorem foldl_modify (hc : ∀ x, key (change x) = key x) {ks : List κ} (hks : ks.Nodup) {l : List α}
    (hl : (l.map key).Nodup) :
    ks.foldl (fun l k => modify key k change l) l = l.map fun x => if key x ∈ ks then change x else x := by
  induction ks generalizing l with
  | nil => simp
  | cons k ks ih =>
    rw [List.nodup_cons] at hks
    have hkeys : ((modify key k change l).map key).Nodup := by
      rw [keys_modify fun x hx => (hc x).trans hx]
      exact hl
    rw [List.foldl_cons, ih hks.2 hkeys, modify_eq_map hl, List.map_map]
    refine List.map_congr_left fun x _ => ?_
    by_cases hx : key x = k
    · have hnot : key x ∉ ks := hx ▸ hks.1
      simp [hx, hc, hx ▸ hnot]
    · simp [hx]

/-- The same change for the keys of all elements with a property. -/
theorem foldl_modify_filter (hc : ∀ x, key (change x) = key x) (p : α → Bool) {l : List α} (hl : (l.map key).Nodup) :
    ((l.filter p).map key).foldl (fun l k => modify key k change l) l = l.map fun x => if p x then change x else x := by
  rw [foldl_modify hc (hl.sublist (List.filter_sublist.map _)) hl]
  refine List.map_congr_left fun x hx => ?_
  have hmem : key x ∈ (l.filter p).map key ↔ p x = true := by
    rw [mem_keys_filter]
    constructor
    · rintro ⟨y, hy, hk, hp⟩
      rw [← List.inj_on_of_nodup_map hl hy hx hk]
      exact hp
    · intro hp
      exact ⟨x, hx, rfl, hp⟩
  simp only [hmem]

theorem times_modify (hc : ∀ x, key x = k → key (change x) = k) (j : κ) (l : List α) :
    times key j (modify key k change l) = times key j l := by
  have hkeys := keys_modify hc l
  have htimes : ∀ l : List α, times key j l = (l.map key).countP fun i => i = j := by
    intro l
    rw [List.countP_map]
    rfl
  rw [htimes, htimes, hkeys]

theorem times_eraseP (j : κ) (l : List α) :
    times key j (l.eraseP fun x => key x = k) = times key j l - if j = k then 1 else 0 := by
  induction l with
  | nil => simp [times]
  | cons x l ih =>
    by_cases hx : key x = k
    · rw [List.eraseP_cons_of_pos (by simpa using hx), times_cons, hx]
      by_cases hj : j = k
      · simp [hj]
      · simp [hj, Ne.symm hj]
    · rw [List.eraseP_cons_of_neg (by simpa using hx), times_cons, times_cons, ih]
      by_cases hj : j = k
      · simp [hj, hx]
      · simp [hj]

/-- A change of the element that is then erased does not matter. -/
theorem eraseP_modify (hc : ∀ x, key x = k → key (change x) = k) (l : List α) :
    (modify key k change l).eraseP (fun x => key x = k) = l.eraseP fun x => key x = k := by
  induction l with
  | nil => rfl
  | cons x l ih =>
    unfold modify
    by_cases hx : key x = k
    · rw [if_pos hx, List.eraseP_cons_of_pos (by simpa using hc x hx), List.eraseP_cons_of_pos (by simpa using hx)]
    · rw [if_neg hx, List.eraseP_cons_of_neg (by simpa using hx), List.eraseP_cons_of_neg (by simpa using hx), ih]

/-- If keys determine the elements, the element with a key is gone after it is erased. -/
theorem get_eraseP {l : List α} (hl : (l.map key).Nodup) (j : κ) :
    get key j (l.eraseP fun x => key x = k) = if j = k then none else get key j l := by
  induction l with
  | nil => simp [get]
  | cons x l ih =>
    rw [List.map_cons, List.nodup_cons] at hl
    by_cases hx : key x = k
    · rw [List.eraseP_cons_of_pos (by simpa using hx), get_cons, hx]
      by_cases hj : j = k
      · rw [if_pos hj, hj, get_eq_none_iff, ← hx]
        exact hl.1
      · rw [if_neg hj, if_neg fun h => hj h.symm]
    · rw [List.eraseP_cons_of_neg (by simpa using hx), get_cons, get_cons, ih hl.2]
      by_cases hxj : key x = j
      · rw [if_pos hxj, if_pos hxj, if_neg fun h => hx (hxj.trans h)]
      · rw [if_neg hxj, if_neg hxj]

end Modify

/-! ### Two lists with the same keys -/

section Matched

variable {α β κ : Type*}

/-- Every element of one list has a partner in the other. -/
def Matched (R : α → β → Prop) (as : List α) (bs : List β) : Prop :=
  (∀ a ∈ as, ∃ b ∈ bs, R a b) ∧ ∀ b ∈ bs, ∃ a ∈ as, R a b

/-- Two lists have the same images if each element has a partner with the same image. -/
theorem mem_map_iff_matched {γ : Type*} {f : α → γ} {g : β → γ} {as : List α} {bs : List β} :
    (∀ c, c ∈ as.map f ↔ c ∈ bs.map g) ↔ Matched (fun a b => f a = g b) as bs := by
  constructor
  · intro h
    refine ⟨fun a ha => ?_, fun b hb => ?_⟩
    · obtain ⟨b, hb, he⟩ := List.mem_map.1 ((h _).1 (List.mem_map_of_mem ha))
      exact ⟨b, hb, he.symm⟩
    · exact List.mem_map.1 ((h _).2 (List.mem_map_of_mem hb))
  · intro h c
    constructor
    · intro hc
      obtain ⟨a, ha, rfl⟩ := List.mem_map.1 hc
      obtain ⟨b, hb, he⟩ := h.1 a ha
      rw [he]
      exact List.mem_map_of_mem hb
    · intro hc
      obtain ⟨b, hb, rfl⟩ := List.mem_map.1 hc
      obtain ⟨a, ha, he⟩ := h.2 b hb
      rw [← he]
      exact List.mem_map_of_mem ha

theorem rel_iff_map_eq {γ : Type*} {f : α → γ} {g : β → γ} {x : Option α} {y : Option β} :
    Option.Rel (fun a b => f a = g b) x y ↔ x.map f = y.map g := by
  cases x <;> cases y <;> simp

theorem rel_map_left {γ : Type*} {R : γ → β → Prop} {f : α → γ} {x : Option α} {y : Option β} :
    Option.Rel R (x.map f) y ↔ Option.Rel (fun a b => R (f a) b) x y := by
  cases x <;> cases y <;> simp

variable [DecidableEq κ] {key : α → κ} {keyOf : β → κ} {as : List α} {bs : List β}

variable (key keyOf) in
/-- If partners have the same key and keys determine the elements, then two lists are matched key by key.  It is
enough to look at the keys with a property that all of them have. -/
theorem matched_iff {R : α → β → Prop} {p : κ → Prop} (hR : ∀ a b, R a b → key a = keyOf b)
    (has : ∀ a ∈ as, ∀ a' ∈ as, key a = key a' → a = a') (hbs : ∀ b ∈ bs, ∀ b' ∈ bs, keyOf b = keyOf b' → b = b')
    (hpa : ∀ a ∈ as, p (key a)) (hpb : ∀ b ∈ bs, p (keyOf b)) :
    Matched R as bs ↔ ∀ k, p k → Option.Rel R (get key k as) (get keyOf k bs) := by
  constructor
  · intro h k _
    rcases ha : get key k as with _ | a
    · rcases hb : get keyOf k bs with _ | b
      · exact Option.Rel.none
      · obtain ⟨hmem, hk⟩ := mem_of_get hb
        obtain ⟨a, hma, hr⟩ := h.2 b hmem
        refine absurd ?_ (get_eq_none_iff.1 ha)
        rw [← hk, ← hR a b hr]
        exact List.mem_map_of_mem hma
    · obtain ⟨hmem, hk⟩ := mem_of_get ha
      obtain ⟨b, hmb, hr⟩ := h.1 a hmem
      have hb : get keyOf k bs = some b := by
        rw [← hk, hR a b hr]
        exact get_of_mem hbs hmb
      rw [hb]
      exact Option.Rel.some hr
  · intro h
    constructor
    · intro a ha
      have hrel := h (key a) (hpa a ha)
      rw [get_of_mem has ha] at hrel
      rcases hb : get keyOf (key a) bs with _ | b
      · rw [hb] at hrel
        cases hrel
      · rw [hb] at hrel
        cases hrel with
        | some hr => exact ⟨b, (mem_of_get hb).1, hr⟩
    · intro b hb
      have hrel := h (keyOf b) (hpb b hb)
      rw [get_of_mem hbs hb] at hrel
      rcases ha : get key (keyOf b) as with _ | a
      · rw [ha] at hrel
        cases hrel
      · rw [ha] at hrel
        cases hrel with
        | some hr => exact ⟨a, (mem_of_get ha).1, hr⟩

end Matched

end KeyedList
