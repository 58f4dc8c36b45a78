import OrionBroker.EscapedSlashes

/-!
# The backslashes before slashes

`backslashFix` goes through the payload of a request of version 1 before it is parsed, and drops every backslash that
stands directly before a slash.  It works on the buffers of C strings; an access outside a buffer has no result here.

All accesses are within the text and its terminator.  The text that is left has the value of the original one exactly if
no slash stands after an even number of backslashes: the last of those is the second half of an escaped backslash, and
without it the first half escapes the slash.
-/

namespace OrionBroker.BackslashFix

open JsonText EscapedSlashes

/-! ### The function -/

/-- A piece of memory, by its characters. -/
abbrev Buffer := List Char

def write (buffer : Buffer) (i : Nat) (c : Char) : Option Buffer :=
  if i < buffer.length then some (buffer.set i c) else none

/-- The text of a C string. -/
def textOf (buffer : Buffer) : List Char := buffer.takeWhile fun c => c ≠ '\x00'

/-- The number of characters before the terminator. -/
def strlen (buffer : Buffer) : Option Nat := buffer.findIdx? fun c => c = '\x00'

def strdup (content : Buffer) : Option Buffer := do
  let n ← strlen content
  return content.take (n + 1)

/-- Copies the characters up to the terminator and the terminator. -/
def strcpy (target source : Buffer) : Option Buffer := do
  let n ← strlen source
  if n < target.length then some (source.take (n + 1) ++ target.drop (n + 1)) else none

/-- The loop of `backslashFix` from `ix` on.  A payload has at most 1 MB, so that no counter overflows. -/
def loop (content : Buffer) (ix nIx : Nat) (newContent : Buffer) : Option (Nat × Buffer) :=
  match strlen content with
  | none => none
  | some n =>
    if ix < n then
      match _h : content[ix]? with
      | none => none
      | some c =>
        if c ≠ '\\' then
          match write newContent nIx c with
          | none => none
          | some newContent => loop content (ix + 1) (nIx + 1) newContent
        else
          match content[ix + 1]? with
          | none => none
          | some next =>
            if next = '/' then
              loop content (ix + 1) nIx newContent
            else
              match write newContent nIx c with
              | none => none
              | some newContent => loop content (ix + 1) (nIx + 1) newContent
    else
      some (nIx, newContent)
termination_by content.length - ix
decreasing_by
  all_goals
    obtain ⟨hix, -⟩ := List.getElem?_eq_some_iff.1 ‹content[ix]? = some _›
    omega

def backslashFix (content : Buffer) : Option Buffer := do
  let newContent ← strdup content
  let (nIx, newContent) ← loop content 0 0 newContent
  let newContent ← write newContent nIx '\x00'
  strcpy content newContent

/-- The part of `jsonParse` that comes before the parser: the fix is called if the text has an escaped slash. -/
def jsonParse (content : Buffer) : Option Buffer :=
  if ['\\', '/'] <:+: textOf content then backslashFix content else some content

/-- The text of a request. -/
structure Payload where
  text : List Char
  no_terminator : '\x00' ∉ text

/-- The text and its terminator. -/
def Payload.content (payload : Payload) : Buffer := payload.text ++ ['\x00']

/-! ### The loop -/

theorem strlen_append {text : List Char} (h : '\x00' ∉ text) (rest : List Char) :
    strlen (text ++ '\x00' :: rest) = some text.length := by
  unfold strlen
  induction text with
  | nil => rfl
  | cons c text ih =>
    rw [List.mem_cons, not_or] at h
    rw [List.cons_append, List.findIdx?_cons, if_neg (by simpa using Ne.symm h.1), ih h.2]
    rfl

theorem textOf_append {text : List Char} (h : '\x00' ∉ text) (rest : List Char) : textOf (text ++ '\x00' :: rest) = text := by
  unfold textOf
  rw [List.takeWhile_append_of_pos]
  · simp
  · intro c hc
    rw [decide_eq_true_iff]
    exact fun he => h (he ▸ hc)

theorem write_of_lt {buffer : Buffer} {i : Nat} (h : i < buffer.length) (c : Char) :
    write buffer i c = some (buffer.set i c) := if_pos h

theorem take_set_succ {buffer : Buffer} {i : Nat} (h : i < buffer.length) (c : Char) :
    (buffer.set i c).take (i + 1) = buffer.take i ++ [c] := by
  rw [List.take_add_one, List.take_set_of_le le_rfl, List.getElem?_set_self h]
  rfl

/-- One turn of the loop. -/
theorem loop_turn {content newContent : Buffer} {n ix nIx : Nat} {c next : Char} (hn : strlen content = some n)
    (hix : ix < n) (hc : content[ix]? = some c) (hnext : content[ix + 1]? = some next) :
    loop content ix nIx newContent =
      if c = '\\' ∧ next = '/' then loop content (ix + 1) nIx newContent
      else (write newContent nIx c).bind (loop content (ix + 1) (nIx + 1)) := by
  rw [loop, hn]
  simp only [if_pos hix, hnext]
  split
  · next h =>
    rw [hc] at h
    cases h
  · next c' h =>
    obtain rfl : c' = c := Option.some.inj (h.symm.trans hc)
    by_cases hback : c' = '\\'
    · subst hback
      by_cases hslash : next = '/'
      · simp only [hslash, ne_eq, not_true, if_false, and_self, if_true]
      · simp only [hslash, ne_eq, not_true, if_false, and_false]
        cases write newContent nIx '\\' <;> rfl
    · simp only [hback, ne_eq, not_false_eq_true, if_true, false_and, if_false]
      cases write newContent nIx c' <;> rfl

/-- From a place in the text on, the loop writes what is left of the rest behind what it has written. -/
theorem loop_eq (before rest : List Char) (hterminator : '\x00' ∉ before ++ rest) (nIx : Nat) (newContent : Buffer)
    (hnIx : nIx ≤ before.length) (hlength : newContent.length = (before ++ rest).length + 1) :
    ∃ nIx' newContent', loop (before ++ rest ++ ['\x00']) before.length nIx newContent = some (nIx', newContent') ∧
      nIx' ≤ (before ++ rest).length ∧ newContent'.length = newContent.length ∧
      newContent'.take nIx' = newContent.take nIx ++ unescaped rest := by
  induction rest generalizing before nIx newContent with
  | nil =>
    refine ⟨nIx, newContent, ?_, by rwa [List.append_nil], rfl, by rw [unescaped_nil, List.append_nil]⟩
    rw [loop, strlen_append hterminator]
    simp
  | cons c rest ih =>
    have hsplit : before ++ c :: rest = before ++ [c] ++ rest := by simp
    have hstep : (before ++ [c]).length = before.length + 1 := by simp
    have hhere : (before ++ c :: rest ++ ['\x00'])[before.length]? = some c := by simp
    have hnext : (before ++ c :: rest ++ ['\x00'])[before.length + 1]? = some (rest.head?.getD '\x00') := by
      rw [List.append_assoc, List.getElem?_append_right (by omega)]
      cases rest <;> simp
    have hslash : rest.head?.getD '\x00' = '/' ↔ rest.head? = some '/' := by
      cases rest with
      | nil => exact ⟨fun h => absurd h (by decide), nofun⟩
      | cons d rest => simp
    rw [loop_turn (strlen_append hterminator []) (by simp) hhere hnext, unescaped]
    rw [hsplit] at hlength hterminator ⊢
    rw [← hstep]
    by_cases hdrop : c = '\\' ∧ rest.head? = some '/'
    · rw [if_pos ⟨hdrop.1, hslash.2 hdrop.2⟩, if_pos hdrop]
      exact ih (before ++ [c]) hterminator nIx newContent (by omega) hlength
    · have hlt : nIx < newContent.length := by
        simp only [List.length_append, List.length_singleton] at hlength
        omega
      obtain ⟨nIx', newContent', hloop, hnIx', hlength', htake⟩ :=
        ih (before ++ [c]) hterminator (nIx + 1) (newContent.set nIx c) (by omega) (by rw [List.length_set, hlength])
      rw [if_neg fun h => hdrop ⟨h.1, hslash.1 h.2⟩, if_neg hdrop, write_of_lt hlt]
      refine ⟨nIx', newContent', hloop, hnIx', by rw [hlength', List.length_set], ?_⟩
      rw [htake, take_set_succ hlt, List.append_assoc]
      rfl

/-- No access is outside the text and its terminator, and the text that is left is known. -/
theorem backslashFix_eq (payload : Payload) :
    ∃ left, backslashFix payload.content = some left ∧ left.length = payload.content.length ∧
      textOf left = unescaped payload.text := by
  obtain ⟨text, hterminator⟩ := payload
  have hdup : strdup (text ++ ['\x00']) = some (text ++ ['\x00']) := by
    unfold strdup
    rw [strlen_append hterminator]
    simp
  obtain ⟨nIx, newContent, hloop, hnIx, hlength, htake⟩ :=
    loop_eq [] text (by simpa using hterminator) 0 (text ++ ['\x00']) le_rfl (by simp)
  rw [List.nil_append] at hloop hnIx
  simp only [List.take_zero, List.nil_append] at htake
  have hlt : nIx < newContent.length := by
    rw [hlength, List.length_append]
    simp only [List.length_singleton]
    omega
  have hclean : '\x00' ∉ unescaped text := fun h => hterminator (subset_of_unescaped text h)
  have hnew : newContent.set nIx '\x00' = unescaped text ++ '\x00' :: newContent.drop (nIx + 1) := by
    rw [List.set_eq_take_append_cons_drop, if_pos hlt, htake]
  have hnIx' : (unescaped text).length = nIx := by
    rw [← htake, List.length_take]
    omega
  refine ⟨unescaped text ++ '\x00' :: (text ++ ['\x00']).drop (nIx + 1), ?_, ?_, ?_⟩
  · unfold backslashFix
    show (strdup (text ++ ['\x00'])).bind _ = _
    rw [hdup]
    show (loop (text ++ ['\x00']) 0 0 (text ++ ['\x00'])).bind _ = _
    rw [show loop (text ++ ['\x00']) 0 0 (text ++ ['\x00']) = some (nIx, newContent) from hloop]
    show (write newContent nIx '\x00').bind _ = _
    rw [write_of_lt hlt]
    show strcpy (text ++ ['\x00']) (newContent.set nIx '\x00') = _
    unfold strcpy
    rw [hnew, strlen_append hclean]
    have hfits : (unescaped text).length < (text ++ ['\x00']).length := by
      rw [List.length_append, List.length_singleton]
      omega
    show (if (unescaped text).length < (text ++ ['\x00']).length then some _ else none) = _
    rw [if_pos hfits, hnIx']
    congr 1
    rw [show (unescaped text ++ '\x00' :: newContent.drop (nIx + 1)) =
      (unescaped text ++ ['\x00']) ++ newContent.drop (nIx + 1) by simp,
      List.take_left' (by rw [List.length_append, hnIx']; rfl), List.append_assoc]
    rfl
  · show (unescaped text ++ _).length = (text ++ ['\x00']).length
    simp only [List.length_append, List.length_cons, List.length_drop, List.length_nil]
    omega
  · exact textOf_append hclean _

/-- The parser is given the text that is left, also where the fix is not called. -/
theorem jsonParse_eq (payload : Payload) :
    ∃ left, jsonParse payload.content = some left ∧ textOf left = unescaped payload.text := by
  unfold jsonParse
  split
  · obtain ⟨left, hleft, -, htext⟩ := backslashFix_eq payload
    exact ⟨left, hleft, htext⟩
  · next hnone =>
    have htext : textOf payload.content = payload.text := textOf_append payload.no_terminator []
    rw [htext] at hnone
    exact ⟨payload.content, rfl, by rw [htext, unescaped_eq_self hnone]⟩

/-! ### The payload -/

/-- The number of backslashes that a text ends with. -/
def backslashesAtEnd (text : List Char) : Nat := (text.reverse.takeWhile fun c => c = '\\').length

/-- No slash stands after an even number of backslashes, if after any. -/
def NoBackslashPairBeforeSlash (text : List Char) : Prop :=
  ∀ before after, text = before ++ '/' :: after → backslashesAtEnd before = 0 ∨ backslashesAtEnd before % 2 = 1

/-- The condition for the rest of a text, behind a number of backslashes. -/
def PairFree : Nat → List Char → Prop
  | _, [] => True
  | n, c :: rest =>
    if c = '\\' then PairFree (n + 1) rest
    else (c = '/' → n = 0 ∨ n % 2 = 1) ∧ PairFree 0 rest

theorem backslashesAtEnd_replicate (n : Nat) : backslashesAtEnd (List.replicate n '\\') = n := by
  unfold backslashesAtEnd
  rw [List.reverse_replicate, List.takeWhile_replicate]
  simp

theorem backslashesAtEnd_append {c : Char} (hc : c ≠ '\\') (before after : List Char) :
    backslashesAtEnd (before ++ c :: after) = backslashesAtEnd after := by
  unfold backslashesAtEnd
  rw [List.reverse_append, List.reverse_cons, List.append_assoc, List.takeWhile_append]
  split
  · next hall =>
    have htake := (List.takeWhile_prefix _).eq_of_length hall
    simp [hc, htake]
  · rfl

theorem pairFree_iff (n : Nat) (text : List Char) :
    PairFree n text ↔ ∀ before after, text = before ++ '/' :: after →
      backslashesAtEnd (List.replicate n '\\' ++ before) = 0 ∨
        backslashesAtEnd (List.replicate n '\\' ++ before) % 2 = 1 := by
  induction text generalizing n with
  | nil => exact ⟨fun _ before after h => absurd h (by simp), fun _ => trivial⟩
  | cons c rest ih =>
    rw [PairFree]
    by_cases hc : c = '\\'
    · subst hc
      rw [if_pos rfl, ih (n + 1)]
      constructor
      · intro h before after hsplit
        cases before with
        | nil => cases hsplit
        | cons d before =>
          cases hsplit
          have hrun := h before after rfl
          rwa [List.replicate_succ', List.append_assoc] at hrun
      · rintro h before after rfl
        have hrun := h ('\\' :: before) after rfl
        rwa [List.replicate_succ', List.append_assoc]
    · rw [if_neg hc, ih 0]
      constructor
      · rintro ⟨hslash, hrest⟩ before after hsplit
        cases before with
        | nil =>
          cases hsplit
          rw [List.append_nil, backslashesAtEnd_replicate]
          exact hslash rfl
        | cons d before =>
          cases hsplit
          rw [backslashesAtEnd_append hc]
          exact hrest before after rfl
      · intro h
        refine ⟨?_, ?_⟩
        · rintro rfl
          have hrun := h [] rest rfl
          rwa [List.append_nil, backslashesAtEnd_replicate] at hrun
        · rintro before after rfl
          have hrun := h (c :: before) after rfl
          rwa [backslashesAtEnd_append hc] at hrun

/-- Pairs of backslashes in front make no difference, unless a slash follows at once. -/
theorem pairFree_iff_broken {n : Nat} (heven : n % 2 = 0) (text : List Char) (hn : n = 0 ∨ text.head? ≠ some '/') :
    PairFree n text ↔ broken text = 0 := by
  fun_induction broken text generalizing n with
  | case1 rest ih =>
    rw [PairFree, if_pos rfl, PairFree, if_pos rfl]
    by_cases hslash : rest.head? = some '/'
    · cases rest with
      | nil => cases hslash
      | cons c rest =>
        cases hslash
        rw [PairFree, if_neg (by decide)]
        constructor
        · intro h
          have hrun := h.1 rfl
          omega
        · intro h
          rw [if_pos List.head?_cons] at h
          omega
    · rw [ih (by omega) (.inr hslash), if_neg hslash, Nat.zero_add]
  | case2 e rest he ih =>
    rw [PairFree, if_pos rfl, PairFree, if_neg he, ih (by omega) (.inl rfl)]
    constructor
    · exact fun h => h.2
    · intro h
      exact ⟨fun _ => by omega, h⟩
  | case3 c rest h₁ h₂ ih =>
    by_cases hc : c = '\\'
    · subst hc
      cases rest with
      | nil => simp [PairFree, broken]
      | cons d rest => exact absurd rfl (h₂ d rest rfl)
    · rw [PairFree, if_neg hc, ih (by omega) (.inl rfl)]
      constructor
      · exact fun h => h.2
      · intro h
        refine ⟨fun hslash => ?_, h⟩
        subst hslash
        obtain rfl | hne := hn
        · exact .inl rfl
        · exact absurd List.head?_cons hne
  | case4 => simp [PairFree]

theorem noBackslashPairBeforeSlash_iff (text : List Char) : NoBackslashPairBeforeSlash text ↔ broken text = 0 := by
  rw [← pairFree_iff_broken (n := 0) rfl text (.inl rfl), pairFree_iff]
  rfl

/-- The text that is left has the meaning of the original one. -/
def MeaningKept (payload : Payload) : Prop :=
  ∃ left, backslashFix payload.content = some left ∧
    parse (String.ofList (textOf left)) = parse (String.ofList payload.text)

/-- All accesses of `backslashFix` are within the text and its terminator; a text that is JSON keeps its meaning exactly
if no slash in it stands after an even number of backslashes. -/
theorem meaningKept_iff (payload : Payload) :
    (backslashFix payload.content).isSome ∧
      (MeaningKept payload ↔
        parse (String.ofList payload.text) = none ∨ NoBackslashPairBeforeSlash payload.text) := by
  obtain ⟨left, hleft, -, htext⟩ := backslashFix_eq payload
  refine ⟨by rw [hleft]; rfl, ?_⟩
  rw [noBackslashPairBeforeSlash_iff, ← parse_unescaped_iff, ← htext]
  constructor
  · rintro ⟨left', hleft', hparse⟩
    rw [hleft] at hleft'
    cases hleft'
    exact hparse
  · intro hparse
    exact ⟨left, hleft, hparse⟩

/-- A string of an escaped backslash and a slash: what is left is the string of a slash. -/
def backslashAndSlash : Payload := ⟨['"', '\\', '\\', '/', '"'], by decide⟩

theorem backslash_lost : ¬∀ payload : Payload, MeaningKept payload := by
  intro h
  obtain ⟨left, hleft, hparse⟩ := h backslashAndSlash
  obtain ⟨left', hleft', -, htext⟩ := backslashFix_eq backslashAndSlash
  rw [hleft] at hleft'
  cases hleft'
  rw [htext, parse_unescaped_iff] at hparse
  have hsome : parse (String.ofList backslashAndSlash.text) = some (.string (String.ofList ['\\', '/'])) :=
    parse_eq_some_iff.2 ⟨1, [], by rw [String.toList_ofList]; rfl, rfl⟩
  rw [hsome] at hparse
  obtain h | h := hparse
  · cases h
  · exact absurd h (by decide)

end OrionBroker.BackslashFix
