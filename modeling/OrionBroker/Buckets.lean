import Mathlib.Data.List.Perm.Basic
import OrionBroker.KeyedList

/-!
# Placing items into buckets

An item is placed into the first bucket of a list that fits; if there is none, a new bucket is put at the end (`place`).
Nothing that was there before is lost (`grows_place`), and the contents of all buckets together gain exactly the item
(`perm_contents_place`).  When the buckets that fit are those with a key, this is the `upsert` of lists with keys.
-/

namespace Buckets

variable {β γ κ : Type*} {fits : β → Bool} {add : β → β} {new b : β} {bs : List β}

def place (fits : β → Bool) (add : β → β) (new : β) : List β → List β
  | [] => [new]
  | b :: bs => if fits b then add b :: bs else b :: place fits add new bs

/-- Either a new bucket is made, or the first one that fits is changed. -/
theorem place_cases (fits : β → Bool) (add : β → β) (new : β) (bs : List β) :
    ((∀ b ∈ bs, fits b = false) ∧ place fits add new bs = bs ++ [new]) ∨
      ∃ before b after, bs = before ++ b :: after ∧ (∀ c ∈ before, fits c = false) ∧ fits b = true ∧
        place fits add new bs = before ++ add b :: after := by
  induction bs with
  | nil => exact Or.inl ⟨nofun, rfl⟩
  | cons b bs ih =>
    by_cases hb : fits b = true
    · exact Or.inr ⟨[], b, bs, rfl, nofun, hb, if_pos hb⟩
    · have hplace : place fits add new (b :: bs) = b :: place fits add new bs := if_neg hb
      rw [Bool.not_eq_true] at hb
      obtain ⟨hnone, heq⟩ | ⟨before, c, after, rfl, hbefore, hc, heq⟩ := ih
      · exact Or.inl ⟨List.forall_mem_cons.2 ⟨hb, hnone⟩, by rw [hplace, heq]; rfl⟩
      · exact Or.inr ⟨b :: before, c, after, rfl, List.forall_mem_cons.2 ⟨hb, hbefore⟩, hc, by rw [hplace, heq]; rfl⟩

theorem place_of_none (h : ∀ b ∈ bs, fits b = false) : place fits add new bs = bs ++ [new] := by
  obtain ⟨-, heq⟩ | ⟨before, b, after, rfl, -, hb, -⟩ := place_cases fits add new bs
  · exact heq
  · exact absurd hb (Bool.eq_false_iff.1 (h b (by simp)))

theorem forall_mem_place {p : β → Prop} (hbs : ∀ b ∈ bs, p b) (hadd : ∀ b, fits b = true → p b → p (add b))
    (hnew : p new) : ∀ b ∈ place fits add new bs, p b := by
  induction bs with
  | nil =>
    intro b hb
    rw [List.mem_singleton.1 hb]
    exact hnew
  | cons c bs ih =>
    rw [List.forall_mem_cons] at hbs
    unfold place
    split
    · rename_i hc
      exact List.forall_mem_cons.2 ⟨hadd c hc hbs.1, hbs.2⟩
    · exact List.forall_mem_cons.2 ⟨hbs.1, ih hbs.2⟩

/-- If a bucket fits, there are as many as before, and each of them stays related to what it was related to. -/
theorem forall₂_place {R : γ → β → Prop} (hadd : ∀ c b, R c b → R c (add b)) {cs : List γ} (h : List.Forall₂ R cs bs)
    (hfits : bs.any fits = true) : List.Forall₂ R cs (place fits add new bs) := by
  induction h with
  | nil => cases hfits
  | @cons c b cs bs hb hbs ih =>
    unfold place
    split
    · exact .cons (hadd c b hb) hbs
    · rename_i hnot
      rw [List.any_cons, Bool.or_eq_true] at hfits
      exact .cons hb (ih (hfits.resolve_left hnot))

/-- The buckets in front come first. -/
theorem place_append (fits : β → Bool) (add : β → β) (new : β) (bs bs' : List β) :
    place fits add new (bs ++ bs') =
      if bs.any fits then place fits add new bs ++ bs' else bs ++ place fits add new bs' := by
  induction bs with
  | nil => rfl
  | cons b bs ih =>
    rw [List.cons_append, place, place, ih]
    by_cases hb : fits b = true
    · simp [hb]
    · simp only [Bool.not_eq_true] at hb
      by_cases hbs : bs.any fits = true <;> simp [hb, hbs]

/-! ### Nothing is lost -/

/-- Every bucket is still at its place, changed as `R` says, and there may be new ones behind. -/
def Grows (R : β → β → Prop) : List β → List β → Prop
  | [], _ => True
  | _ :: _, [] => False
  | b :: bs, b' :: bs' => R b b' ∧ Grows R bs bs'

section Grows

variable {R : β → β → Prop} {bs' bs'' : List β}

theorem grows_append (hrefl : ∀ b, R b b) (bs added : List β) : Grows R bs (bs ++ added) := by
  induction bs with
  | nil => trivial
  | cons b bs ih => exact ⟨hrefl b, ih⟩

theorem grows_refl (hrefl : ∀ b, R b b) (bs : List β) : Grows R bs bs := by
  have h := grows_append hrefl bs []
  rwa [List.append_nil] at h

theorem Grows.trans (htrans : ∀ a b c, R a b → R b c → R a c) (h : Grows R bs bs') (h' : Grows R bs' bs'') :
    Grows R bs bs'' := by
  induction bs generalizing bs' bs'' with
  | nil => trivial
  | cons b bs ih =>
    match bs', bs'', h, h' with
    | _ :: _, _ :: _, ⟨hb, hbs⟩, ⟨hb', hbs'⟩ => exact ⟨htrans _ _ _ hb hb', ih hbs hbs'⟩

theorem grows_place (hrefl : ∀ b, R b b) (hadd : ∀ b, fits b = true → R b (add b)) (bs : List β) :
    Grows R bs (place fits add new bs) := by
  induction bs with
  | nil => trivial
  | cons b bs ih =>
    unfold place
    split
    · rename_i hb
      exact ⟨hadd b hb, grows_refl hrefl bs⟩
    · exact ⟨hrefl b, ih⟩

theorem Grows.exists_of_mem (h : Grows R bs bs') (hb : b ∈ bs) : ∃ b' ∈ bs', R b b' := by
  induction bs generalizing bs' with
  | nil => cases hb
  | cons c bs ih =>
    match bs', h with
    | c' :: bs', ⟨hc, hbs⟩ =>
      rcases List.mem_cons.1 hb with rfl | hb
      · exact ⟨c', List.mem_cons_self, hc⟩
      · obtain ⟨b', hb', hR⟩ := ih hbs hb
        exact ⟨b', List.mem_cons_of_mem _ hb', hR⟩

end Grows

/-! ### The contents of the buckets -/

theorem perm_contents_place {contents : β → List γ} {items : List γ}
    (hadd : ∀ b ∈ bs, fits b = true → (contents (add b)).Perm (contents b ++ items))
    (hnew : (∀ b ∈ bs, fits b = false) → (contents new).Perm items) :
    ((place fits add new bs).flatMap contents).Perm (bs.flatMap contents ++ items) := by
  obtain ⟨hnone, heq⟩ | ⟨before, b, after, rfl, -, hb, heq⟩ := place_cases fits add new bs
  · rw [heq, List.flatMap_append, List.flatMap_singleton]
    exact (hnew hnone).append_left _
  · rw [heq]
    simp only [List.flatMap_append, List.flatMap_cons]
    have hb' := hadd b (by simp) hb
    -- the items are moved behind the contents of the other buckets
    refine ((hb'.append_right _).append_left _).trans ?_
    simp only [List.append_assoc]
    exact (List.perm_append_comm.append_left _).append_left _

/-! ### Buckets with a key -/

theorem map_place {f : β → γ} (hadd : ∀ b, fits b = true → f (add b) = f b) (bs : List β) :
    (place fits add new bs).map f = if bs.any fits then bs.map f else bs.map f ++ [f new] := by
  induction bs with
  | nil => rfl
  | cons b bs ih =>
    unfold place
    by_cases hb : fits b = true
    · simp [hb, hadd b hb]
    · rw [if_neg hb, List.map_cons, ih]
      simp only [Bool.not_eq_true] at hb
      by_cases hbs : bs.any fits = true <;> simp [hb, hbs]

/-- Changing the first element with a key is placing it. -/
theorem upsert_eq_place [DecidableEq κ] (key : β → κ) (k : κ) (bs : List β) :
    KeyedList.upsert key k add new bs = place (fun b => key b = k) add new bs := by
  induction bs with
  | nil => rfl
  | cons b bs ih =>
    unfold KeyedList.upsert place
    by_cases hb : key b = k <;> simp [hb, ih]

end Buckets
