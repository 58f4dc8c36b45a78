import OrionBroker.Location

/-!
# Stripping blanks (`wsStrip.cpp`)

What `wsStrip` leaves and what it takes away.
-/

namespace OrionBroker

/-- Nothing but what is stripped. -/
def Blanks (l : List Char) : Prop := ∀ c ∈ l, isStripped c = true

/-- Nothing to strip at either end. -/
def Trimmed (l : List Char) : Prop :=
  (∀ c ∈ l.head?, isStripped c = false) ∧ ∀ c ∈ l.getLast?, isStripped c = false

theorem Blanks.reverse {b : List Char} (h : Blanks b) : Blanks b.reverse := fun c hc => h c (List.mem_reverse.1 hc)

theorem Blanks.append {b b' : List Char} (h : Blanks b) (h' : Blanks b') : Blanks (b ++ b') := fun c hc =>
  (List.mem_append.1 hc).elim (h c) (h' c)

theorem dropWhile_append_blank {b : List Char} (h : Blanks b) (l : List Char) :
    (b ++ l).dropWhile isStripped = l.dropWhile isStripped := by
  induction b with
  | nil => rfl
  | cons c b ih =>
    rw [List.cons_append, List.dropWhile_cons, if_pos (h c List.mem_cons_self)]
    exact ih fun d hd => h d (List.mem_cons_of_mem c hd)

theorem dropWhile_of_head {l : List Char} (h : ∀ c ∈ l.head?, isStripped c = false) : l.dropWhile isStripped = l := by
  cases l with
  | nil => rfl
  | cons c l =>
    have hc : isStripped c = false := h c rfl
    rw [List.dropWhile_cons, if_neg (by simp [hc])]

theorem head_dropWhile (l : List Char) : ∀ c ∈ (l.dropWhile isStripped).head?, isStripped c = false := by
  intro c hc
  have hnot := List.head?_dropWhile_not isStripped l
  rw [Option.mem_def] at hc
  rw [hc] at hnot
  simpa using hnot

theorem dropWhile_decompose (l : List Char) : ∃ b, Blanks b ∧ l = b ++ l.dropWhile isStripped :=
  ⟨l.takeWhile isStripped, fun _ hc => List.mem_takeWhile_imp hc, List.takeWhile_append_dropWhile.symm⟩

theorem wsStrip_append_left {b : List Char} (h : Blanks b) (l : List Char) : wsStrip (b ++ l) = wsStrip l := by
  rw [wsStrip, wsStrip, dropWhile_append_blank h]

theorem wsStrip_of_trimmed {n : List Char} (h : Trimmed n) : wsStrip n = n := by
  rw [wsStrip, dropWhile_of_head h.1, dropWhile_of_head (by rw [List.head?_reverse]; exact h.2), List.reverse_reverse]

theorem wsStrip_append_right {b : List Char} (h : Blanks b) (l : List Char) : wsStrip (l ++ b) = wsStrip l := by
  obtain ⟨b', hb', hl⟩ := dropWhile_decompose l
  rw [hl, List.append_assoc, wsStrip_append_left hb', wsStrip_append_left hb']
  have hhead := head_dropWhile l
  generalize l.dropWhile isStripped = n at hhead
  cases n with
  | nil =>
    have hnone : b.dropWhile isStripped = [] := List.dropWhile_eq_nil_iff.2 h
    simp [wsStrip, hnone]
  | cons c n =>
    have hhead' : ∀ d ∈ (c :: n ++ b).head?, isStripped d = false := hhead
    rw [wsStrip, wsStrip, dropWhile_of_head hhead', dropWhile_of_head hhead, List.reverse_append,
      dropWhile_append_blank h.reverse]

/-- The end of a text that is cut off. -/
theorem dropWhile_eq_wsStrip_append (l : List Char) : ∃ b, Blanks b ∧ l.dropWhile isStripped = wsStrip l ++ b := by
  obtain ⟨b, hb, hr⟩ := dropWhile_decompose (l.dropWhile isStripped).reverse
  refine ⟨b.reverse, hb.reverse, ?_⟩
  rw [wsStrip, ← List.reverse_append, ← hr, List.reverse_reverse]

/-- What is left after stripping, and what was stripped. -/
theorem wsStrip_decompose (l : List Char) :
    Trimmed (wsStrip l) ∧ ∃ b b', Blanks b ∧ Blanks b' ∧ l = b ++ wsStrip l ++ b' := by
  obtain ⟨b, hb, hl⟩ := dropWhile_decompose l
  obtain ⟨b', hb', hmid⟩ := dropWhile_eq_wsStrip_append l
  refine ⟨⟨?_, ?_⟩, b, b', hb, hb', ?_⟩
  · intro c hc
    refine head_dropWhile l c ?_
    rw [hmid, List.head?_append, Option.mem_def, hc, Option.some_or]
  · intro c hc
    rw [wsStrip, List.getLast?_reverse] at hc
    exact head_dropWhile _ c hc
  · rw [List.append_assoc, ← hmid]
    exact hl

theorem wsStrip_wsStrip (l : List Char) : wsStrip (wsStrip l) = wsStrip l :=
  wsStrip_of_trimmed (wsStrip_decompose l).1

theorem wsStrip_eq_nil_iff {l : List Char} : wsStrip l = [] ↔ Blanks l := by
  constructor
  · intro h
    obtain ⟨-, b, b', hb, hb', hl⟩ := wsStrip_decompose l
    rw [hl, h, List.append_nil]
    exact hb.append hb'
  · intro h
    rw [← List.append_nil l, wsStrip_append_left h]
    rfl

end OrionBroker
