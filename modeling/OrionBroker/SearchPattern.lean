import Mathlib.Data.List.Basic
import Mathlib.Data.List.Chain
import Mathlib.Data.List.Infix
import Mathlib.Data.Finset.Max
import Mathlib.Data.Prod.Lex
import Mathlib.Tactic.Common

/-!
# Patterns and what they find

Regular expressions as a search engine reads them: characters, the dot, anchors, repetitions, alternatives, and
backslashes before characters that are neither letters nor digits.  Bracket expressions, groups, other escapes and
repetitions of repetitions are not read (`lex`, `Readable`).  A search finds a string if one of the alternatives accepts
a part of it (`Found`).

An alternative that accepts a whole string of a finite language is longer than the string, or has more runs of digits
(`Spelled`): a repetition is written with digits that it does not produce.
-/

namespace SearchPattern

/-! ### Tokens -/

/-- What a pattern is made of. -/
inductive Token where
  | char (c : Char) (escaped : Bool)
  | any
  | star
  | plus
  | count (digits : List Char)
  | start
  | finish
  | bar
deriving DecidableEq

namespace Token

def text : Token → List Char
  | char c escaped => if escaped then ['\\', c] else [c]
  | any => ['.']
  | star => ['*']
  | plus => ['+']
  | count digits => '\x7b' :: (digits ++ ['\x7d'])
  | start => ['^']
  | finish => ['$']
  | bar => ['|']

def isChar : Token → Bool
  | char _ _ => true
  | _ => false

def isAtom : Token → Bool
  | char _ _ | any => true
  | _ => false

def isCount : Token → Bool
  | count _ => true
  | _ => false

def isRepetition : Token → Bool
  | star | plus | count _ => true
  | _ => false

/-- The characters that an atom stands for. -/
def reads : Token → Char → Bool
  | char c _, d => c = d
  | any, d => d ≠ '\n'
  | _, _ => false

/-- How often a repetition has its atom. -/
def bounds : Token → Option (Nat × Option Nat)
  | star => some (0, none)
  | plus => some (1, none)
  | count digits =>
    let n := digits.foldl (fun n d => 10 * n + (d.toNat - '0'.toNat)) 0
    some (n, some n)
  | _ => none

end Token

/-! ### Reading a pattern -/

/-- Digits, at least one of them in all, and the character behind them. -/
def closes (d : Char) : Bool → List Char → Bool
  | _, [] => false
  | seen, c :: s => if c.isDigit then closes d true s else seen && c = d

/-- Where the reader is: between two tokens, behind a backslash, or behind a brace and some digits. -/
inductive Mode where
  | between
  | escaped
  | count (digits : List Char)

/-- A character without a backslash. -/
def meaning (c : Char) : Token :=
  if c = '.' then .any else if c = '*' then .star else if c = '+' then .plus else if c = '^' then .start
  else if c = '$' then .finish else if c = '|' then .bar else .char c false

/-- Brackets and groups are not read, and neither are a question mark and a range of repetitions. -/
def unread (c : Char) (s : List Char) : Bool :=
  c ∈ ['[', '(', ')', '?'] || (c = '\x7b' && closes ',' false s)

def lex : Mode → List Char → Option (List Token)
  | .between, [] => some []
  | .escaped, [] => none
  | .count _, [] => none
  | .between, c :: s =>
    if c = '\\' then lex .escaped s
    else if c = '\x7b' && closes '\x7d' false s then lex (.count []) s
    else if unread c s then none
    else (lex .between s).map (meaning c :: ·)
  | .escaped, c :: s => if c.isAlphanum then none else (lex .between s).map (.char c true :: ·)
  | .count digits, c :: s =>
    if c = '\x7d' then (lex .between s).map (.count digits :: ·) else lex (.count (digits ++ [c])) s

/-- No repetition stands behind another one. -/
def Readable (pattern : List Char) : Prop :=
  ∃ ts, lex .between pattern = some ts ∧ ts.IsChain fun t u => ¬(t.isRepetition = true ∧ u.isRepetition = true)

/-! ### Searching -/

/-- An alternative accepts what follows, or the beginning of it; `atStart` says that nothing stands before it. -/
inductive Accepts : List Token → Bool → List Char → Prop where
  | done (atStart : Bool) (s : List Char) : Accepts [] atStart s
  | start {ts : List Token} {s : List Char} (h : Accepts ts true s) : Accepts (.start :: ts) true s
  | finish {ts : List Token} {atStart : Bool} (h : Accepts ts atStart []) : Accepts (.finish :: ts) atStart []
  | once {t : Token} {ts : List Token} {atStart : Bool} {c : Char} {s : List Char} (ht : t.isAtom = true)
      (hc : t.reads c = true) (h : Accepts ts false s) : Accepts (t :: ts) atStart (c :: s)
  | repeated {t q : Token} {ts : List Token} {atStart : Bool} {lo : Nat} {hi : Option Nat} {u s : List Char}
      (ht : t.isAtom = true) (hq : q.bounds = some (lo, hi)) (hu : ∀ c ∈ u, t.reads c = true) (hlo : lo ≤ u.length)
      (hhi : ∀ n ∈ hi, u.length ≤ n) (h : Accepts ts (atStart && u.isEmpty) s) :
      Accepts (t :: q :: ts) atStart (u ++ s)

/-- The alternatives of a pattern. -/
def branches (ts : List Token) : List (List Token) := ts.splitOnP (· = .bar)

/-- Every repetition has an atom; a pattern is not searched for otherwise. -/
def Valid (ts : List Token) : Prop := (Token.bar :: ts).IsChain fun t u => u.isRepetition = true → t.isAtom = true

/-- The pattern finds something in the string. -/
def Found (pattern s : List Char) : Prop :=
  ∃ ts, lex .between pattern = some ts ∧ Valid ts ∧
    ∃ branch ∈ branches ts, ∃ before rest, s = before ++ rest ∧ Accepts branch before.isEmpty rest

/-! ### Where a reader is -/

def Mode.text : Mode → List Char
  | between => []
  | escaped => ['\\']
  | count digits => '\x7b' :: digits

/-- The digits behind a brace are followed by another brace. -/
def Mode.Closed : Mode → List Char → Prop
  | count digits, s => (∀ c ∈ digits, c.isDigit = true) ∧ closes '\x7d' (!digits.isEmpty) s = true
  | _, _ => True

theorem lex_between (c : Char) (s : List Char) :
    lex .between (c :: s) =
      if c = '\\' then lex .escaped s
      else if c = '\x7b' && closes '\x7d' false s then lex (.count []) s
      else if unread c s then none
      else (lex .between s).map (meaning c :: ·) :=
  rfl

theorem lex_escaped (c : Char) (s : List Char) :
    lex .escaped (c :: s) = if c.isAlphanum then none else (lex .between s).map (.char c true :: ·) :=
  rfl

theorem lex_digits (digits : List Char) (c : Char) (s : List Char) :
    lex (.count digits) (c :: s) =
      if c = '\x7d' then (lex .between s).map (.count digits :: ·) else lex (.count (digits ++ [c])) s :=
  rfl

theorem closed_digit {digits s : List Char} {c : Char} (hc : c ≠ '\x7d') (h : (Mode.count digits).Closed (c :: s)) :
    (Mode.count (digits ++ [c])).Closed s := by
  obtain ⟨hdigits, hcloses⟩ := h
  unfold closes at hcloses
  split at hcloses
  · rename_i hdigit
    refine ⟨?_, by cases digits <;> simpa using hcloses⟩
    intro d hd
    rcases List.mem_append.1 hd with hd | hd
    · exact hdigits d hd
    · rw [List.mem_singleton.1 hd]
      exact hdigit
  · simp [hc] at hcloses

/-- How a reader gets from a mode and a text to its tokens. -/
inductive Lexed : Mode → List Char → List Token → Prop
  | nil : Lexed .between [] []
  | slash {s : List Char} {ts : List Token} : Lexed .escaped s ts → Lexed .between ('\\' :: s) ts
  | brace {s : List Char} {ts : List Token} : closes '\x7d' false s = true → Lexed (.count []) s ts →
    Lexed .between ('\x7b' :: s) ts
  | char {c : Char} {s : List Char} {ts : List Token} : Lexed .between s ts → Lexed .between (c :: s) (meaning c :: ts)
  | escaped {c : Char} {s : List Char} {ts : List Token} : Lexed .between s ts →
    Lexed .escaped (c :: s) (.char c true :: ts)
  | finished {digits s : List Char} {ts : List Token} : Lexed .between s ts →
    Lexed (.count digits) ('\x7d' :: s) (.count digits :: ts)
  | digit {c : Char} {digits s : List Char} {ts : List Token} : c ≠ '\x7d' → Lexed (.count (digits ++ [c])) s ts →
    Lexed (.count digits) (c :: s) ts

theorem lexed_of_lex {mode : Mode} {s : List Char} {ts : List Token} (h : lex mode s = some ts) : Lexed mode s ts := by
  induction s generalizing mode ts with
  | nil =>
    cases mode with
    | between =>
      cases h
      exact .nil
    | _ => cases h
  | cons c s ih =>
    cases mode with
    | between =>
      rw [lex_between] at h
      split_ifs at h with hslash hbrace hunread
      · rw [hslash]
        exact .slash (ih h)
      · simp only [Bool.and_eq_true, decide_eq_true_eq] at hbrace
        rw [hbrace.1]
        exact .brace hbrace.2 (ih h)
      · obtain ⟨ts', hts', rfl⟩ := Option.map_eq_some_iff.1 h
        exact .char (ih hts')
    | escaped =>
      rw [lex_escaped] at h
      split_ifs at h
      obtain ⟨ts', hts', rfl⟩ := Option.map_eq_some_iff.1 h
      exact .escaped (ih hts')
    | count digits =>
      rw [lex_digits] at h
      split_ifs at h with hc
      · obtain ⟨ts', hts', rfl⟩ := Option.map_eq_some_iff.1 h
        rw [hc]
        exact .finished (ih hts')
      · exact .digit hc (ih h)

theorem Lexed.text {mode : Mode} {s : List Char} {ts : List Token} (h : Lexed mode s ts) :
    mode.text ++ s = ts.flatMap Token.text := by
  induction h with
  | nil => rfl
  | slash _ ih | brace _ _ ih =>
    rw [← ih]
    rfl
  | @char c s ts _ ih =>
    have hc : (meaning c).text = [c] := by
      unfold meaning
      split_ifs <;> simp_all [Token.text]
    rw [List.flatMap_cons, ← ih, hc]
    rfl
  | escaped _ ih =>
    rw [List.flatMap_cons, ← ih]
    rfl
  | finished _ ih =>
    rw [List.flatMap_cons, ← ih]
    simp [Mode.text, Token.text]
  | digit _ _ ih =>
    rw [← ih]
    simp [Mode.text]

/-- A number of repetitions ends before a character that is not part of it. -/
theorem closes_append {d e : Char} (he : e.isDigit = false) (hd : d ≠ e) (seen : Bool) (s rest : List Char) :
    closes d seen (s ++ e :: rest) = closes d seen s := by
  induction s generalizing seen with
  | nil => simp [closes, he, hd.symm]
  | cons c s ih => simp only [List.cons_append, closes, ih]

theorem unread_append {e : Char} (he : e.isDigit = false) (hcomma : ',' ≠ e) (c : Char) (s rest : List Char) :
    unread c (s ++ e :: rest) = unread c s := by
  unfold unread
  rw [closes_append he hcomma]

private theorem cons_bind (t : Token) (first rest : Option (List Token)) :
    (first.bind fun ts => rest.map (ts ++ ·)).map (t :: ·) = (first.map (t :: ·)).bind fun ts => rest.map (ts ++ ·) := by
  cases first <;> cases rest <;> rfl

/-- A text that ends with a dollar is read on its own. -/
theorem lex_append {mode : Mode} {s : List Char} (h : mode.Closed s) (rest : List Char) :
    lex mode (s ++ '$' :: rest) =
      (lex mode (s ++ ['$'])).bind fun ts => (lex .between rest).map (ts ++ ·) := by
  induction s generalizing mode with
  | nil =>
    cases mode with
    | between =>
      have hfinish : meaning '$' = .finish := by decide
      simp [lex, unread, hfinish, closes]
    | escaped =>
      have hdollar : ('$' : Char).isAlphanum = false := by decide
      simp [lex, hdollar]
    | count digits => simp [Mode.Closed, closes] at h
  | cons c s ih =>
    rw [List.cons_append, List.cons_append]
    cases mode with
    | between =>
      rw [lex_between, lex_between, closes_append (by decide) (by decide), closes_append (by decide) (by decide),
        unread_append (by decide) (by decide), unread_append (by decide) (by decide)]
      split_ifs with hslash hbrace hunread
      · exact @ih .escaped trivial
      · simp only [Bool.and_eq_true, decide_eq_true_eq] at hbrace
        exact @ih (.count []) ⟨by simp, hbrace.2⟩
      · rfl
      · rw [@ih .between trivial, cons_bind]
    | escaped =>
      rw [lex_escaped, lex_escaped]
      split
      · rfl
      · rw [@ih .between trivial, cons_bind]
    | count digits =>
      rw [lex_digits, lex_digits]
      split
      · rw [@ih .between trivial, cons_bind]
      · rename_i hc
        exact ih (closed_digit hc h)

/-- A repetition has a number. -/
theorem Lexed.count {mode : Mode} {s : List Char} {ts : List Token} (h : Lexed mode s ts) (hclosed : mode.Closed s) :
    ∀ digits, .count digits ∈ ts → digits ≠ [] ∧ ∀ c ∈ digits, c.isDigit = true := by
  induction h with
  | nil => simp
  | slash _ ih => exact ih trivial
  | brace hcloses _ ih => exact ih ⟨by simp, hcloses⟩
  | @char c s ts _ ih =>
    intro digits hmem
    rcases List.mem_cons.1 hmem with hhead | hmem
    · exfalso
      unfold meaning at hhead
      split_ifs at hhead
    · exact ih trivial digits hmem
  | escaped _ ih =>
    intro digits hmem
    exact ih trivial digits (by simpa using hmem)
  | finished _ ih =>
    intro digits' hmem
    rcases List.mem_cons.1 hmem with hhead | hmem
    · cases hhead
      have hbrace : ('\x7d' : Char).isDigit = false := by decide
      have hcloses := hclosed.2
      simp only [closes, hbrace, Bool.false_eq_true, if_false, Bool.and_eq_true] at hcloses
      exact ⟨by simpa using hcloses.1, hclosed.1⟩
    · exact ih trivial digits' hmem
  | digit hc _ ih => exact ih (closed_digit hc hclosed)

/-- Characters and anchors that are read are not more than those of the text. -/
theorem Lexed.size {mode : Mode} {s : List Char} {ts : List Token} (h : Lexed mode s ts) :
    ts.countP Token.isChar + ts.count .finish ≤ s.length := by
  have hone : ∀ t : Token, (if t.isChar = true then 1 else 0) + (if t = .finish then 1 else 0) ≤ 1 := by
    intro t
    cases t <;> simp [Token.isChar]
  -- one token is read with one character
  have hcons : ∀ {t : Token} {ts : List Token} {c : Char} {s : List Char},
      ts.countP Token.isChar + ts.count .finish ≤ s.length →
        (t :: ts).countP Token.isChar + (t :: ts).count .finish ≤ (c :: s).length := by
    intro t ts c s hts
    have hone := hone t
    simp only [List.countP_cons, List.count_cons, List.length_cons, beq_iff_eq]
    omega
  induction h with
  | nil => simp
  | slash _ ih | brace _ _ ih | digit _ _ ih => exact ih.trans (Nat.le_succ _)
  | char _ ih | escaped _ ih | finished _ ih => exact hcons ih

/-! ### Texts without special characters -/

/-- No character has a special meaning; a brace has one only if a number and a brace follow. -/
def inert : List Char → Bool
  | [] => true
  | c :: s => !(c ∈ ['\\', '^', '$', '.', '[', '|', '(', ')', '?', '*', '+']) &&
      !(c = '\x7b' && (closes '\x7d' false s || closes ',' false s)) && inert s

def literal (s : List Char) : List Token := s.map (.char · false)

theorem meaning_eq_char {c : Char} : meaning c = .char c false ↔ c ∉ ['.', '*', '+', '^', '$', '|'] := by
  simp only [List.mem_cons, List.not_mem_nil, or_false, not_or]
  unfold meaning
  split_ifs <;> simp_all

theorem meaning_of_inert {c : Char} {s : List Char} (h : inert (c :: s) = true) :
    c ≠ '\\' ∧ (c = '\x7b' && closes '\x7d' false s) = false ∧ unread c s = false ∧ meaning c = .char c false ∧
      inert s = true := by
  simp only [inert, Bool.and_eq_true, Bool.not_eq_true', decide_eq_false_iff_not, List.mem_cons, List.not_mem_nil,
    or_false, not_or] at h
  obtain ⟨⟨hc, hbrace⟩, hs⟩ := h
  refine ⟨hc.1, ?_, ?_, ?_, hs⟩
  · by_cases hb : c = '\x7b' <;> simp_all
  · by_cases hb : c = '\x7b' <;> simp_all [unread]
  · simp [meaning, hc]

/-- A text without special characters is read as it is, whatever follows that does not belong to a number of
repetitions. -/
theorem lex_append_of_inert {s : List Char} (h : inert s = true) {e : Char} (he : e.isDigit = false)
    (hcomma : ',' ≠ e) (hbrace : '\x7d' ≠ e) (rest : List Char) :
    lex .between (s ++ e :: rest) = (lex .between (e :: rest)).map (literal s ++ ·) := by
  induction s with
  | nil =>
    rw [List.nil_append]
    cases lex .between (e :: rest) <;> rfl
  | cons c s ih =>
    obtain ⟨hslash, hcount, hunread, hmeaning, hs⟩ := meaning_of_inert h
    rw [List.cons_append, lex_between, closes_append he hbrace, unread_append he hcomma, if_neg hslash, hcount, hunread,
      ih hs, hmeaning]
    cases lex .between (e :: rest) <;> rfl

theorem lex_of_inert {s : List Char} (h : inert s = true) :
    lex .between (s ++ ['$']) = some (literal s ++ [.finish]) := by
  rw [lex_append_of_inert h (by decide) (by decide) (by decide)]
  rfl

/-- A text has no special character, or fewer characters are read than it has. -/
theorem inert_or_shorter {s : List Char} {ts : List Token} (h : lex .between (s ++ ['$']) = some ts) :
    inert s = true ∨ ts.countP Token.isChar < s.length ∨
      (.finish ∉ ts ∧ ts.countP Token.isChar ≤ s.length) := by
  -- what is read behind a special character
  have hspecial : ∀ {c : Char} {s : List Char} {ts' : List Token}, ts'.countP Token.isChar + ts'.count .finish ≤ (s ++ ['$']).length →
      ts'.countP Token.isChar < (c :: s).length ∨ (.finish ∉ ts' ∧ ts'.countP Token.isChar ≤ (c :: s).length) := by
    intro c s ts' hsize
    simp only [List.length_append, List.length_cons, List.length_nil] at hsize ⊢
    by_cases hmem : Token.finish ∈ ts'
    · have hcount := List.count_pos_iff.2 hmem
      exact .inl (by omega)
    · exact .inr ⟨hmem, by omega⟩
  induction s generalizing ts with
  | nil => exact .inl rfl
  | cons c s ih =>
    rw [List.cons_append] at h
    unfold lex at h
    rw [closes_append (by decide) (by decide), unread_append (by decide) (by decide)] at h
    split_ifs at h with hslash hbrace hunread
    · exact .inr (hspecial (lexed_of_lex h).size)
    · exact .inr (hspecial (lexed_of_lex h).size)
    · obtain ⟨ts', hts', rfl⟩ := Option.map_eq_some_iff.1 h
      by_cases hfinish : c = '$'
      · right
        left
        have hc : meaning c = .finish := by rw [hfinish]; decide
        rw [hc]
        simp only [List.countP_cons, Token.isChar, List.length_cons]
        rcases ih hts' with hinert | hshort | ⟨-, hshort⟩
        · rw [lex_of_inert hinert] at hts'
          cases hts'
          have hle : (literal s).countP Token.isChar ≤ s.length := List.countP_le_length.trans_eq (by simp [literal])
          simp [Token.isChar]
          omega
        all_goals
          simp
          omega
      · by_cases hmeaning : meaning c = .char c false
        · have hcount : (Token.char c false :: ts').countP Token.isChar = ts'.countP Token.isChar + 1 :=
            List.countP_cons_of_pos rfl
          rw [hmeaning, hcount, List.length_cons]
          rcases ih hts' with hinert | hshort | ⟨hnot, hshort⟩
          · left
            have hplain := meaning_eq_char.1 hmeaning
            simp only [Bool.and_eq_true, decide_eq_true_eq, not_and, Bool.not_eq_true] at hbrace
            simp only [unread, Bool.or_eq_true, decide_eq_true_eq, Bool.and_eq_true, not_or, not_and,
              Bool.not_eq_true] at hunread
            have hpair : (c = '\x7b' && (closes '\x7d' false s || closes ',' false s)) = false := by
              by_cases hb : c = '\x7b'
              · simp [hbrace hb, hunread.2 hb]
              · simp [hb]
            simp only [List.mem_cons, List.not_mem_nil, or_false, not_or] at hplain hunread
            simp [inert, hinert, hpair, hslash, hplain, hunread.1]
          · right
            left
            omega
          · right
            right
            exact ⟨by simp [hnot], by omega⟩
        · have hnot : (meaning c).isChar = false ∧ meaning c ≠ .finish := by
            unfold meaning at hmeaning ⊢
            split_ifs at hmeaning ⊢ <;> simp_all [Token.isChar]
          rcases hspecial (c := c) (lexed_of_lex hts').size with hshort | ⟨hnone, hshort⟩
          · right
            left
            simpa [hnot.1] using hshort
          · right
            right
            refine ⟨?_, by simpa [hnot.1] using hshort⟩
            simp [hnone, hnot.2.symm]

/-! ### What an alternative accepts -/

section Accepts

variable {branch : List Token} {atStart : Bool} {s : List Char}

theorem Token.reads_char {c d : Char} {escaped : Bool} : (Token.char c escaped).reads d = true ↔ c = d :=
  decide_eq_true_iff

theorem Token.reads_any {d : Char} : Token.any.reads d = true ↔ d ≠ '\n' :=
  decide_eq_true_iff

theorem Token.ne_of_atom {t : Token} (h : t.isAtom = true) : t ≠ .start ∧ t ≠ .finish ∧ t.isCount = false := by
  cases t with
  | char c escaped => exact ⟨nofun, nofun, rfl⟩
  | any => exact ⟨nofun, nofun, rfl⟩
  | _ => cases h

theorem Token.ne_of_bounds {q : Token} {b : Nat × Option Nat} (h : q.bounds = some b) :
    q ≠ .start ∧ q ≠ .finish ∧ q.isRepetition = true := by
  cases q <;> simp_all [Token.bounds, Token.isRepetition]

theorem Accepts.not_start (h : Accepts branch atStart s) (hstart : atStart = false) : .start ∉ branch := by
  induction h with
  | done => simp
  | start => cases hstart
  | finish _ ih => simp [ih hstart]
  | once ht _ _ ih => simp [ih rfl, (Token.ne_of_atom ht).1.symm]
  | repeated ht hq _ _ _ _ ih =>
    simp [ih (by simp [hstart]), (Token.ne_of_atom ht).1.symm, (Token.ne_of_bounds hq).1.symm]

/-- Without an anchor at the start an alternative accepts the string behind another one. -/
theorem Accepts.behind (h : Accepts branch atStart s) (hstart : .start ∉ branch) : Accepts branch false s := by
  induction h with
  | done => exact .done _ _
  | start => simp at hstart
  | finish _ ih => exact .finish (ih fun hmem => hstart (List.mem_cons_of_mem _ hmem))
  | once ht hc h _ => exact .once ht hc h
  | repeated ht hq hu hlo hhi _ ih =>
    exact .repeated ht hq hu hlo hhi (ih fun hmem => hstart (List.mem_cons_of_mem _ (List.mem_cons_of_mem _ hmem)))

/-- Without an anchor at the end an alternative accepts the string before another one. -/
theorem Accepts.before (h : Accepts branch atStart s) (hfinish : .finish ∉ branch) (rest : List Char) :
    Accepts branch atStart (s ++ rest) := by
  induction h with
  | done => exact .done _ _
  | start _ ih => exact .start (ih fun hmem => hfinish (List.mem_cons_of_mem _ hmem))
  | finish => simp at hfinish
  | once ht hc _ ih => exact .once ht hc (ih fun hmem => hfinish (List.mem_cons_of_mem _ hmem))
  | repeated ht hq hu hlo hhi _ ih =>
    rw [List.append_assoc]
    exact .repeated ht hq hu hlo hhi (ih fun hmem => hfinish (List.mem_cons_of_mem _ (List.mem_cons_of_mem _ hmem)))

/-- The string is written out in the alternative, apart from numbers of repetitions. -/
inductive Spelled : List Token → List Char → Prop where
  | done : Spelled [] []
  | start {ts : List Token} {s : List Char} (h : Spelled ts s) : Spelled (.start :: ts) s
  | finish {ts : List Token} {s : List Char} (h : Spelled ts s) : Spelled (.finish :: ts) s
  | once {ts : List Token} {s : List Char} (c : Char) (escaped : Bool) (h : Spelled ts s) :
      Spelled (.char c escaped :: ts) (c :: s)
  | skipped {t q : Token} {ts : List Token} {s : List Char} (ht : t.isAtom = true) (hq : q.isRepetition = true)
      (h : Spelled ts s) : Spelled (t :: q :: ts) s
  | counted {ts : List Token} {s : List Char} (c : Char) (escaped : Bool) (digits : List Char) (n : Nat)
      (h : Spelled ts s) : Spelled (.char c escaped :: .count digits :: ts) (List.replicate n c ++ s)

theorem Accepts.spelled_nil (h : Accepts branch atStart s) (hs : s = []) : Spelled branch [] := by
  induction h with
  | done => exact .done
  | start _ ih => exact .start (ih hs)
  | finish _ ih => exact .finish (ih hs)
  | once => cases hs
  | repeated ht hq _ _ _ _ ih => exact .skipped ht (Token.ne_of_bounds hq).2.2 (ih (List.append_eq_nil_iff.1 hs).2)

/-- Another character can be put into the string, or it can be made longer than any number says. -/
def Varies (x : Char) (branch : List Token) (atStart : Bool) (s : List Char) : Prop :=
  ∀ n, ∃ s', Accepts branch atStart s' ∧ (∀ c ∈ s', c ∈ s ∨ c = x) ∧ (x ∈ s' ∨ n < s'.length)

theorem Varies.append {x : Char} {branch' : List Token} {atStart' : Bool} (h : Varies x branch atStart s) (u : List Char)
    (hcons : ∀ s', Accepts branch atStart s' → Accepts branch' atStart' (u ++ s')) :
    Varies x branch' atStart' (u ++ s) := by
  intro n
  obtain ⟨s', hs', hmem, hout⟩ := h n
  refine ⟨u ++ s', hcons s' hs', ?_, ?_⟩
  · intro c hc
    rcases List.mem_append.1 hc with hc | hc
    · exact .inl (List.mem_append_left _ hc)
    · exact (hmem c hc).imp_left (List.mem_append_right _)
  · exact hout.imp (List.mem_append_right _) fun hlt => hlt.trans_le (by simp)

theorem Accepts.varies_or_spelled {x : Char} (hx : x ≠ '\n') (h : Accepts branch atStart s) (hfinish : .finish ∈ branch) :
    Varies x branch atStart s ∨ Spelled branch s := by
  induction h with
  | done => simp at hfinish
  | start _ ih =>
    rcases ih (by simpa using hfinish) with hvaries | hspelled
    · exact .inl (hvaries.append [] fun _ h => .start h)
    · exact .inr (.start hspelled)
  | finish h _ => exact .inr (.finish (h.spelled_nil rfl))
  | @once t ts atStart c s ht hc h ih =>
    cases t with
    | char d escaped =>
      have hd : d = c := Token.reads_char.1 hc
      rcases ih (by simpa using hfinish) with hvaries | hspelled
      · exact .inl (hvaries.append [c] fun _ h => .once ht hc h)
      · exact .inr (hd ▸ .once d escaped hspelled)
    | any =>
      refine .inl fun n => ⟨x :: s, .once ht (Token.reads_any.2 hx) h, ?_, .inl List.mem_cons_self⟩
      intro d hd
      rcases List.mem_cons.1 hd with hd | hd
      · exact .inr hd
      · exact .inl (List.mem_cons_of_mem _ hd)
    | _ => cases ht
  | @repeated t q ts atStart lo hi u s ht hq hu hlo hhi h ih =>
    have hmem : .finish ∈ ts := by
      simpa [(Token.ne_of_atom ht).2.1.symm, (Token.ne_of_bounds hq).2.1.symm] using hfinish
    rcases u with _ | ⟨c, u⟩
    · rcases ih hmem with hvaries | hspelled
      · exact .inl (hvaries.append [] fun s' h => .repeated ht hq hu hlo hhi h)
      · exact .inr (.skipped ht (Token.ne_of_bounds hq).2.2 hspelled)
    · cases t with
      | any =>
        refine .inl fun n => ⟨x :: u ++ s, .repeated (u := x :: u) ht hq ?_ hlo hhi h, ?_, .inl List.mem_cons_self⟩
        · intro d hd
          rcases List.mem_cons.1 hd with hd | hd
          · rw [hd]
            exact Token.reads_any.2 hx
          · exact hu d (List.mem_cons_of_mem _ hd)
        · intro d hd
          rcases List.mem_cons.1 hd with hd | hd
          · exact .inr hd
          · exact .inl (List.mem_cons_of_mem _ hd)
      | char d escaped =>
        have hd : ∀ c' ∈ c :: u, c' = d := fun c' hc' => (Token.reads_char.1 (hu c' hc')).symm
        cases q with
        | count digits =>
          rcases ih hmem with hvaries | hspelled
          · exact .inl (hvaries.append (c :: u) fun s' h => .repeated ht hq hu hlo hhi h)
          · rw [List.eq_replicate_of_mem hd]
            exact .inr (.counted d escaped digits _ hspelled)
        | star | plus =>
          cases hq
          refine .inl fun n => ?_
          have hmore : ∀ c' ∈ c :: u ++ List.replicate n d, c' ∈ c :: u := by
            intro c' hc'
            rcases List.mem_append.1 hc' with hc' | hc'
            · exact hc'
            · rw [List.eq_of_mem_replicate hc', ← hd c List.mem_cons_self]
              exact List.mem_cons_self
          refine ⟨c :: u ++ List.replicate n d ++ s, .repeated (u := c :: u ++ List.replicate n d) ht rfl
            (fun c' hc' => hu c' (hmore c' hc')) (by simp) (by simp) h, ?_, .inr (by simp; omega)⟩
          intro c' hc'
          rcases List.mem_append.1 hc' with hc' | hc'
          · exact .inl (List.mem_append_left _ (hmore c' hc'))
          · exact .inl (List.mem_append_right _ hc')
        | _ => cases hq
      | _ => cases ht

/-! ### Runs of digits -/

/-- The number of longest runs of digits, behind a digit or not. -/
def digitRuns : Bool → List Char → Nat
  | _, [] => 0
  | behind, c :: s => (if c.isDigit && !behind then 1 else 0) + digitRuns c.isDigit s

theorem digitRuns_append_left (behind : Bool) (s t : List Char) :
    digitRuns behind s ≤ digitRuns behind (s ++ t) := by
  induction s generalizing behind with
  | nil => exact Nat.zero_le _
  | cons c s ih =>
    simp only [List.cons_append, digitRuns]
    exact Nat.add_le_add_left (ih _) _

theorem digitRuns_append_right (behind : Bool) (s t : List Char) :
    digitRuns false t ≤ digitRuns behind (s ++ t) + behind.toNat := by
  induction s generalizing behind with
  | nil =>
    cases t with
    | nil => simp [digitRuns]
    | cons c t =>
      simp only [List.nil_append, digitRuns]
      cases c.isDigit <;> cases behind <;> simp [Nat.add_comm]
  | cons c s ih =>
    have ih := ih c.isDigit
    simp only [List.cons_append, digitRuns]
    cases hc : c.isDigit <;> cases behind <;> simp [hc] at ih ⊢ <;> omega

theorem digitRuns_of_infix {s t : List Char} (h : s <:+: t) : digitRuns false s ≤ digitRuns false t := by
  obtain ⟨before, after, rfl⟩ := h
  have hright := digitRuns_append_right false before (s ++ after)
  rw [Bool.toNat_false, Nat.add_zero, ← List.append_assoc] at hright
  exact (digitRuns_append_left false s after).trans hright

theorem digitRuns_finish (behind : Bool) (s : List Char) : digitRuns behind (s ++ ['$']) = digitRuns behind s := by
  induction s generalizing behind with
  | nil =>
    have hdollar : ('$' : Char).isDigit = false := by decide
    simp [digitRuns, hdollar]
  | cons c s ih => rw [List.cons_append, digitRuns, digitRuns, ih]

/-- The number of a repetition is a run of digits. -/
theorem digitRuns_count {digits : List Char} (hne : digits ≠ []) (hdigits : ∀ c ∈ digits, c.isDigit = true) (s : List Char) :
    digitRuns false (digits ++ '\x7d' :: s) = 1 + digitRuns false s := by
  have hrest : ∀ {digits : List Char}, (∀ c ∈ digits, c.isDigit = true) →
      digitRuns true (digits ++ '\x7d' :: s) = digitRuns false s := by
    intro digits hdigits
    have hbrace : ('\x7d' : Char).isDigit = false := by decide
    induction digits with
    | nil => simp [digitRuns, hbrace]
    | cons c digits ih =>
      simp [digitRuns, hdigits c List.mem_cons_self, ih fun d hd => hdigits d (List.mem_cons_of_mem _ hd)]
  cases digits with
  | nil => exact absurd rfl hne
  | cons c digits =>
    simp [digitRuns, hdigits c List.mem_cons_self, hrest fun d hd => hdigits d (List.mem_cons_of_mem _ hd)]

theorem digitRuns_replicate (behind : Bool) (c : Char) (n : Nat) (s : List Char) :
    digitRuns behind (List.replicate (n + 1) c ++ s) = digitRuns behind (c :: s) := by
  induction n generalizing behind with
  | zero => rfl
  | succ n ih =>
    rw [List.replicate_succ, List.cons_append, digitRuns, ih]
    cases hc : c.isDigit <;> simp [digitRuns, hc]

theorem digitRuns_cons_of_not_digit {c : Char} (hc : c.isDigit = false) (behind : Bool) (s : List Char) :
    digitRuns behind (c :: s) = digitRuns false s := by
  simp [digitRuns, hc]

theorem digitRuns_le_append {c : Char} (hc : c.isDigit = false) (behind : Bool) (s t : List Char) :
    digitRuns false t ≤ digitRuns behind (s ++ c :: t) := by
  induction s generalizing behind with
  | nil => rw [List.nil_append, digitRuns_cons_of_not_digit hc]
  | cons d s ih => exact (ih d.isDigit).trans (Nat.le_add_left _ _)

theorem digitRuns_char {behind behind' : Bool} (hbehind : behind = true → behind' = true) (c : Char) (escaped : Bool)
    (s : List Char) :
    (if c.isDigit && !behind' then 1 else 0) + digitRuns c.isDigit s ≤
      digitRuns behind ((Token.char c escaped).text ++ s) := by
  have hslash : ('\\' : Char).isDigit = false := by decide
  cases escaped with
  | true =>
    simp only [Token.text, if_true, List.cons_append, List.nil_append]
    rw [digitRuns_cons_of_not_digit hslash, digitRuns]
    cases behind' <;> simp
  | false =>
    simp only [Token.text, Bool.false_eq_true, if_false, List.cons_append, List.nil_append, digitRuns]
    cases behind <;> cases behind' <;> simp_all

theorem digitRuns_repetition {q : Token} (hq : q.isRepetition = true)
    (hcount : ∀ digits, .count digits = q → digits ≠ [] ∧ ∀ c ∈ digits, c.isDigit = true) (behind : Bool)
    (s t : List Char) :
    digitRuns false t + (if q.isCount then 1 else 0) ≤ digitRuns behind (s ++ (q.text ++ t)) := by
  have hbrace : ('\x7b' : Char).isDigit = false := by decide
  cases q with
  | star => exact digitRuns_le_append (by decide) behind s t
  | plus => exact digitRuns_le_append (by decide) behind s t
  | count digits =>
    obtain ⟨hne, hdigits⟩ := hcount digits rfl
    have hnumber := digitRuns_count hne hdigits t
    have hbehind := digitRuns_le_append hbrace behind s (digits ++ '\x7d' :: t)
    simp only [Token.text, Token.isCount, if_true, List.cons_append, List.append_assoc, List.nil_append]
    omega
  | _ => cases hq

/-- The alternative has the runs of digits of the string and one more for each number of repetitions. -/
theorem Spelled.digitRuns_le (h : Spelled branch s)
    (hcount : ∀ digits, .count digits ∈ branch → digits ≠ [] ∧ ∀ c ∈ digits, c.isDigit = true) {behind behind' : Bool}
    (hbehind : behind = true → behind' = true) :
    digitRuns behind' s + branch.countP Token.isCount ≤ digitRuns behind (branch.flatMap Token.text) := by
  induction h generalizing behind behind' with
  | done => simp [digitRuns]
  | @start ts s _ ih | @finish ts s _ ih =>
    -- an anchor is no digit
    have hrest : digitRuns behind' s + ts.countP Token.isCount ≤ digitRuns false (ts.flatMap Token.text) :=
      ih (fun digits hmem => hcount digits (List.mem_cons_of_mem _ hmem)) (by simp)
    rw [List.flatMap_cons, Token.text, List.singleton_append, digitRuns_cons_of_not_digit (by decide)]
    simpa [Token.isCount] using hrest
  | @once ts s c escaped _ ih =>
    have hrest : digitRuns c.isDigit s + ts.countP Token.isCount ≤ digitRuns c.isDigit (ts.flatMap Token.text) :=
      ih (fun digits hmem => hcount digits (List.mem_cons_of_mem _ hmem)) id
    have hchar := digitRuns_char hbehind c escaped (ts.flatMap Token.text)
    rw [List.flatMap_cons, List.countP_cons_of_neg (by simp [Token.isCount]), digitRuns]
    omega
  | @skipped t q ts s ht hq _ ih =>
    have hrest : digitRuns behind' s + ts.countP Token.isCount ≤ digitRuns false (ts.flatMap Token.text) :=
      ih (fun digits hmem => hcount digits (List.mem_cons_of_mem _ (List.mem_cons_of_mem _ hmem))) (by simp)
    have hnumber := digitRuns_repetition hq (fun digits hd => hcount digits (by simp [hd])) behind t.text
      (ts.flatMap Token.text)
    have hnot := (Token.ne_of_atom ht).2.2
    rw [List.flatMap_cons, List.flatMap_cons, List.countP_cons_of_neg (by simp [hnot]), List.countP_cons]
    omega
  | @counted ts s c escaped digits n _ ih =>
    have hdigits := hcount digits (by simp)
    have hbrace : ('\x7b' : Char).isDigit = false := by decide
    have hrest : ∀ {behind' : Bool}, digitRuns behind' s + ts.countP Token.isCount ≤
        digitRuns false (ts.flatMap Token.text) := fun {behind'} =>
      ih (fun digits hmem => hcount digits (List.mem_cons_of_mem _ (List.mem_cons_of_mem _ hmem))) (by simp)
    rw [List.flatMap_cons, List.flatMap_cons, List.countP_cons_of_neg (by simp [Token.isCount]),
      List.countP_cons_of_pos rfl]
    cases n with
    | zero =>
      have hnumber := @digitRuns_repetition (.count digits) rfl (fun _ hd => by cases hd; exact hdigits) behind
        (Token.char c escaped).text (ts.flatMap Token.text)
      have hrest := @hrest behind'
      simp only [Token.isCount, if_true, List.replicate_zero, List.nil_append] at hnumber ⊢
      omega
    | succ n =>
      have hchar := digitRuns_char hbehind c escaped ((Token.count digits).text ++ ts.flatMap Token.text)
      have htext : digitRuns c.isDigit ((Token.count digits).text ++ ts.flatMap Token.text) =
          1 + digitRuns false (ts.flatMap Token.text) := by
        simp only [Token.text, List.cons_append, List.append_assoc, List.nil_append]
        rw [digitRuns_cons_of_not_digit hbrace, digitRuns_count hdigits.1 hdigits.2]
      have hrest := @hrest c.isDigit
      rw [digitRuns_replicate, digitRuns]
      omega

/-- Without numbers of repetitions the string has no more characters than the alternative. -/
theorem Spelled.length_le (h : Spelled branch s) (hcount : branch.countP Token.isCount = 0) :
    s.length ≤ branch.countP Token.isChar := by
  induction h with
  | done => simp
  | start _ ih => simpa [Token.isChar] using ih (by simpa [Token.isCount] using hcount)
  | finish _ ih => simpa [Token.isChar] using ih (by simpa [Token.isCount] using hcount)
  | once c escaped _ ih =>
    rw [List.countP_cons_of_pos rfl]
    exact Nat.succ_le_succ (ih (by simpa [Token.isCount] using hcount))
  | @skipped t q ts s ht hq _ ih =>
    have hrest : ts.countP Token.isCount = 0 := by
      simp only [List.countP_cons] at hcount
      omega
    refine (ih hrest).trans ?_
    simp only [List.countP_cons]
    omega
  | counted => simp [Token.isCount] at hcount

end Accepts

/-! ### Alternatives of texts -/

/-- The texts between anchors, one alternative each. -/
def alternatives (first : List Char) (rest : List (List Char)) : List Char :=
  '^' :: (first ++ '$' :: rest.flatMap fun text => '|' :: '^' :: (text ++ ['$']))

theorem lex_start (s : List Char) : lex .between ('^' :: s) = (lex .between s).map (.start :: ·) := by
  rw [lex_between]
  simp [unread, meaning]

theorem lex_bar (s : List Char) : lex .between ('|' :: s) = (lex .between s).map (.bar :: ·) := by
  rw [lex_between]
  simp [unread, meaning]

/-- The tokens of a text between anchors. -/
def anchored (text : List Char) : Option (List Token) := (lex .between (text ++ ['$'])).map (.start :: ·)

theorem lex_alternatives_nil (first : List Char) : lex .between (alternatives first []) = anchored first := by
  rw [alternatives, List.flatMap_nil, lex_start]
  rfl

theorem lex_alternatives_cons (first text : List Char) (rest : List (List Char)) :
    lex .between (alternatives first (text :: rest)) =
      (anchored first).bind fun us => (lex .between (alternatives text rest)).map fun ts => us ++ .bar :: ts := by
  have hsplit : alternatives first (text :: rest) = '^' :: (first ++ '$' :: '|' :: alternatives text rest) := by
    simp [alternatives]
  rw [hsplit, lex_start, @lex_append .between _ trivial, lex_bar, anchored]
  cases lex .between (first ++ ['$']) <;> cases lex .between (alternatives text rest) <;> rfl

theorem branches_append (us ts : List Token) : branches (us ++ .bar :: ts) = branches us ++ branches ts :=
  List.splitOnP_append_cons us ts rfl

/-- Each alternative is a part of one of the texts. -/
theorem mem_branches_alternatives {first : List Char} {rest : List (List Char)} {ts branch : List Token}
    (h : lex .between (alternatives first rest) = some ts) :
    branch ∈ branches ts ↔ ∃ text ∈ first :: rest, ∃ us, anchored text = some us ∧ branch ∈ branches us := by
  induction rest generalizing first ts with
  | nil =>
    rw [lex_alternatives_nil] at h
    simp [h]
  | cons text rest ih =>
    rw [lex_alternatives_cons] at h
    obtain ⟨us, hus, hmap⟩ := Option.bind_eq_some_iff.1 h
    obtain ⟨ts', hts', rfl⟩ := Option.map_eq_some_iff.1 hmap
    rw [branches_append, List.mem_append, ih hts', List.exists_mem_cons_iff _ first, hus]
    simp

theorem branches_infix (ts : List Token) :
    ∃ branch rest, branches ts = branch :: rest ∧ branch <+: ts ∧ ∀ b ∈ rest, b <:+: ts := by
  induction ts with
  | nil => exact ⟨[], [], rfl, List.prefix_rfl, by simp⟩
  | cons t ts ih =>
    obtain ⟨branch, rest, hbranches, hfirst, hrest⟩ := ih
    rw [branches, List.splitOnP_cons_eq_if_modifyHead, ← branches, hbranches]
    split
    · refine ⟨[], branch :: rest, rfl, List.nil_prefix, ?_⟩
      intro b hb
      rcases List.mem_cons.1 hb with rfl | hb
      · exact hfirst.isInfix.trans (List.suffix_cons t ts).isInfix
      · exact (hrest b hb).trans (List.suffix_cons t ts).isInfix
    · refine ⟨t :: branch, rest, rfl, (List.prefix_cons_inj t).2 hfirst, ?_⟩
      exact fun b hb => (hrest b hb).trans (List.suffix_cons t ts).isInfix

theorem infix_of_mem_branches {ts branch : List Token} (h : branch ∈ branches ts) : branch <:+: ts := by
  obtain ⟨first, rest, hbranches, hfirst, hrest⟩ := branches_infix ts
  rw [hbranches] at h
  rcases List.mem_cons.1 h with rfl | h
  · exact hfirst.isInfix
  · exact hrest branch h

/-! ### What is found -/

/-- Texts are compared by their runs of digits, then by their lengths. -/
def size (s : List Char) : ℕ ×ₗ ℕ := toLex (digitRuns false s, s.length)

/-- What a text with special characters spells is smaller than the text. -/
theorem Spelled.size_lt {text s : List Char} {us branch : List Token} (hus : anchored text = some us)
    (hinert : inert text = false) (hbranch : branch ∈ branches us) (hfinish : .finish ∈ branch)
    (h : Spelled branch s) : size s < size text := by
  obtain ⟨ts, hts, rfl⟩ := Option.map_eq_some_iff.1 hus
  have hinfix := infix_of_mem_branches hbranch
  have hcount : ∀ digits, .count digits ∈ branch → digits ≠ [] ∧ ∀ c ∈ digits, c.isDigit = true := by
    intro digits hmem
    exact (lexed_of_lex hts).count trivial digits (by simpa using hinfix.subset hmem)
  have htext : (Token.start :: ts).flatMap Token.text = '^' :: (text ++ ['$']) := by
    rw [List.flatMap_cons, ← (lexed_of_lex hts).text]
    rfl
  have hruns : digitRuns false s + branch.countP Token.isCount ≤ digitRuns false text := by
    have hpart : digitRuns false (branch.flatMap Token.text) ≤ digitRuns false ('^' :: (text ++ ['$'])) := by
      obtain ⟨before, after, hsplit⟩ := hinfix
      rw [← htext, ← hsplit]
      exact digitRuns_of_infix ⟨before.flatMap Token.text, after.flatMap Token.text, by simp⟩
    rw [digitRuns_cons_of_not_digit (by decide), digitRuns_finish] at hpart
    exact (h.digitRuns_le hcount id).trans hpart
  rcases Nat.eq_zero_or_pos (branch.countP Token.isCount) with hnone | hsome
  · have hlength : s.length < text.length := by
      have hmem : .finish ∈ ts := by simpa using hinfix.subset hfinish
      have hchars : branch.countP Token.isChar ≤ ts.countP Token.isChar := by
        have hle := hinfix.sublist.countP_le (p := Token.isChar)
        rwa [List.countP_cons_of_neg (by decide)] at hle
      have hle := h.length_le hnone
      rcases inert_or_shorter hts with hin | hlt | ⟨hnot, -⟩
      · rw [hinert] at hin
        cases hin
      · omega
      · exact absurd hmem hnot
    rw [size, size, Prod.Lex.toLex_lt_toLex]
    rcases Nat.lt_or_eq_of_le (le_trans (Nat.le_add_right _ _) hruns) with hlt | heq
    · exact .inl hlt
    · exact .inr ⟨heq, hlength⟩
  · rw [size, size, Prod.Lex.toLex_lt_toLex]
    exact .inl (by simp only; omega)

theorem mem_literal {text : List Char} {t : Token} (h : t ∈ literal text) : t.isRepetition = false ∧ t ≠ .bar := by
  obtain ⟨c, -, rfl⟩ := List.mem_map.1 h
  exact ⟨rfl, by simp⟩

theorem literal_not_repetition {text : List Char} {t : Token} (h : t ∈ literal text ++ [.finish]) :
    t.isRepetition = false ∧ t ≠ .bar := by
  rcases List.mem_append.1 h with h | h
  · exact mem_literal h
  · rw [List.mem_singleton.1 h]
    exact ⟨rfl, by simp⟩

/-- The characters of a text are read one by one. -/
theorem accepts_literal_append {ts : List Token} (hts : ∀ t ∈ ts.head?, t.isRepetition = false) (text : List Char)
    (atStart : Bool) (s : List Char) :
    Accepts (literal text ++ ts) atStart s ↔ ∃ rest, s = text ++ rest ∧ Accepts ts (atStart && text.isEmpty) rest := by
  induction text generalizing atStart s with
  | nil => simp [literal]
  | cons c text ih =>
    have hcons : literal (c :: text) ++ ts = .char c false :: (literal text ++ ts) := rfl
    have hnext : ∀ t ∈ (literal text ++ ts).head?, t.isRepetition = false := by
      intro t ht
      cases text with
      | nil => exact hts t ht
      | cons d text =>
        cases ht
        rfl
    rw [hcons]
    constructor
    · intro h
      generalize hrest : literal text ++ ts = us at h
      cases h with
      | once _ hc h =>
        rw [← hrest] at h
        obtain ⟨rest, rfl, haccepts⟩ := (ih _ _).1 h
        rw [Token.reads_char.1 hc]
        exact ⟨rest, rfl, by simpa using haccepts⟩
      | repeated _ hq =>
        -- what follows is no repetition
        have hrepeats := (Token.ne_of_bounds hq).2.2
        rw [hnext _ (by rw [hrest]; exact List.head?_cons)] at hrepeats
        cases hrepeats
    · rintro ⟨rest, rfl, h⟩
      exact .once rfl (Token.reads_char.2 rfl) ((ih _ _).2 ⟨rest, rfl, by simpa using h⟩)

theorem accepts_literal (text : List Char) (atStart : Bool) (s : List Char) :
    Accepts (literal text ++ [.finish]) atStart s ↔ s = text := by
  rw [accepts_literal_append (by simp [Token.isRepetition])]
  constructor
  · rintro ⟨rest, rfl, h⟩
    cases h with
    | finish => rw [List.append_nil]
    | once ht => cases ht
  · rintro rfl
    exact ⟨[], (List.append_nil s).symm, .finish (.done _ _)⟩

theorem accepts_anchored {text : List Char} {atStart : Bool} {s : List Char} :
    Accepts (.start :: (literal text ++ [.finish])) atStart s ↔ atStart = true ∧ s = text := by
  constructor
  · intro h
    generalize hrest : literal text ++ [.finish] = ts at h
    cases h with
    | start h =>
      rw [← hrest] at h
      exact ⟨rfl, (accepts_literal text true s).1 h⟩
    | once ht => cases ht
    | repeated ht => cases ht
  · rintro ⟨rfl, rfl⟩
    exact .start ((accepts_literal s true s).2 rfl)

theorem anchored_of_inert {text : List Char} (h : inert text = true) :
    anchored text = some (.start :: (literal text ++ [.finish])) := by
  rw [anchored, lex_of_inert h]
  rfl

theorem branches_of_inert (text : List Char) :
    branches (.start :: (literal text ++ [.finish])) = [.start :: (literal text ++ [.finish])] := by
  refine List.splitOnP_eq_singleton fun t ht => ?_
  rcases List.mem_cons.1 ht with rfl | ht
  · rfl
  · exact decide_eq_false (literal_not_repetition ht).2

theorem lex_alternatives_of_inert {first : List Char} {rest : List (List Char)}
    (h : ∀ text ∈ first :: rest, inert text = true) :
    ∃ ts, lex .between (alternatives first rest) = some ts ∧ ∀ t ∈ ts, t.isRepetition = false := by
  have hfirst : ∀ t ∈ Token.start :: (literal first ++ [.finish]), t.isRepetition = false := by
    intro t ht
    rcases List.mem_cons.1 ht with rfl | ht
    · rfl
    · exact (literal_not_repetition ht).1
  induction rest generalizing first with
  | nil => exact ⟨_, (lex_alternatives_nil first).trans (anchored_of_inert (h first List.mem_cons_self)), hfirst⟩
  | cons text rest ih =>
    have htext : ∀ t ∈ Token.start :: (literal text ++ [.finish]), t.isRepetition = false := by
      intro t ht
      rcases List.mem_cons.1 ht with rfl | ht
      · rfl
      · exact (literal_not_repetition ht).1
    obtain ⟨ts, hts, hnot⟩ := ih (fun t ht => h t (List.mem_cons_of_mem _ ht)) htext
    refine ⟨.start :: (literal first ++ [.finish]) ++ .bar :: ts, ?_, ?_⟩
    · rw [lex_alternatives_cons, anchored_of_inert (h first List.mem_cons_self), hts]
      rfl
    · intro t ht
      rcases List.mem_append.1 ht with ht | ht
      · exact hfirst t ht
      · rcases List.mem_cons.1 ht with rfl | ht
        · rfl
        · exact hnot t ht

/-- A pattern of texts without special characters can be read. -/
theorem readable_alternatives {first : List Char} {rest : List (List Char)}
    (h : ∀ text ∈ first :: rest, inert text = true) : Readable (alternatives first rest) := by
  obtain ⟨ts, hts, hnot⟩ := lex_alternatives_of_inert h
  refine ⟨ts, hts, (List.pairwise_of_forall_mem_list fun t ht u _ hboth => ?_).isChain⟩
  rw [hnot t ht] at hboth
  cases hboth.1

/-- A pattern of texts without special characters finds these and no others. -/
theorem found_alternatives {first : List Char} {rest : List (List Char)}
    (h : ∀ text ∈ first :: rest, inert text = true) (s : List Char) :
    Found (alternatives first rest) s ↔ s ∈ first :: rest := by
  constructor
  · rintro ⟨ts, hts, -, branch, hbranch, before, after, rfl, haccepts⟩
    obtain ⟨text, htext, us, hus, hmem⟩ := (mem_branches_alternatives hts).1 hbranch
    rw [anchored_of_inert (h text htext)] at hus
    cases hus
    rw [branches_of_inert, List.mem_singleton] at hmem
    rw [hmem, accepts_anchored] at haccepts
    rw [List.isEmpty_iff.1 haccepts.1, List.nil_append, haccepts.2]
    exact htext
  · intro hs
    obtain ⟨ts, hts, hnot⟩ := lex_alternatives_of_inert h
    refine ⟨ts, hts, (List.pairwise_of_forall_mem_list fun t _ u hu hrepeats => ?_).isChain, _,
      (mem_branches_alternatives hts).2 ⟨s, hs, _, anchored_of_inert (h s hs), ?_⟩, [], s, rfl,
      accepts_anchored.2 ⟨rfl, rfl⟩⟩
    · rcases List.mem_cons.1 hu with rfl | hu
      · cases hrepeats
      · rw [hnot u hu] at hrepeats
        cases hrepeats
    · rw [branches_of_inert]
      exact List.mem_singleton_self _

/-! ### Beginnings -/

/-- A text at the beginning, and anything behind it. -/
def beginning (text : List Char) : List Char := '^' :: (text ++ ['.', '*'])

theorem lex_beginning {text : List Char} (h : inert text = true) :
    lex .between (beginning text) = some (.start :: (literal text ++ [.any, .star])) := by
  rw [beginning, lex_start, lex_append_of_inert h (by decide) (by decide) (by decide)]
  rfl

/-- The star is the only repetition, and a dot stands before it. -/
theorem isChain_beginning (r : Token → Token → Prop) (text : List Char) (hstar : r .any .star)
    (hrest : ∀ t u, u.isRepetition = false → r t u) (first : List Token) (hfirst : ∀ t ∈ first, t.isRepetition = false) :
    (first ++ literal text ++ [Token.any, .star]).IsChain r := by
  have hsplit : first ++ literal text ++ [Token.any, .star] = (first ++ literal text ++ [.any]) ++ [.star] := by simp
  rw [hsplit, List.isChain_append]
  refine ⟨(List.pairwise_of_forall_mem_list fun t _ u hu => hrest t u ?_).isChain, List.isChain_singleton _, ?_⟩
  · rcases List.mem_append.1 hu with hu | hu
    · rcases List.mem_append.1 hu with hu | hu
      · exact hfirst u hu
      · exact (mem_literal hu).1
    · rw [List.mem_singleton.1 hu]
      rfl
  · intro t ht u hu
    rw [List.getLast?_concat] at ht
    cases ht
    cases hu
    exact hstar

theorem readable_beginning {text : List Char} (h : inert text = true) : Readable (beginning text) := by
  refine ⟨_, lex_beginning h, ?_⟩
  refine isChain_beginning (fun t u => ¬(t.isRepetition = true ∧ u.isRepetition = true)) text (by decide)
    (fun t u hu hboth => ?_) [.start] (by simp [Token.isRepetition])
  rw [hu] at hboth
  cases hboth.2

/-- The pattern finds the strings that begin with the text. -/
theorem found_beginning {text : List Char} (h : inert text = true) (s : List Char) :
    Found (beginning text) s ↔ text <+: s := by
  have hbranches : branches (.start :: (literal text ++ [.any, .star])) = [.start :: (literal text ++ [.any, .star])] := by
    refine List.splitOnP_eq_singleton fun t ht => ?_
    rcases List.mem_cons.1 ht with rfl | ht
    · rfl
    · rcases List.mem_append.1 ht with ht | ht
      · exact decide_eq_false (mem_literal ht).2
      · simp only [List.mem_cons, List.not_mem_nil, or_false] at ht
        rcases ht with rfl | rfl <;> rfl
  have hany : ∀ t ∈ [Token.any, .star].head?, t.isRepetition = false := by simp [Token.isRepetition]
  constructor
  · rintro ⟨ts, hts, -, branch, hbranch, before, after, rfl, haccepts⟩
    rw [lex_beginning h] at hts
    cases hts
    rw [hbranches, List.mem_singleton] at hbranch
    rw [hbranch] at haccepts
    generalize hrest : literal text ++ [.any, .star] = us at haccepts
    generalize hstart : before.isEmpty = atStart at haccepts
    cases haccepts with
    | start haccepts =>
      rw [← hrest] at haccepts
      obtain ⟨rest, hafter, -⟩ := (accepts_literal_append hany text true after).1 haccepts
      rw [List.isEmpty_iff.1 hstart, List.nil_append, hafter]
      exact List.prefix_append text rest
    | once ht => cases ht
    | repeated ht => cases ht
  · rintro ⟨rest, rfl⟩
    have hvalid : Valid (.start :: (literal text ++ [.any, .star])) := by
      refine isChain_beginning _ text (fun _ => rfl) (fun t u hu hrepeats => ?_) [.bar, .start]
        (by simp [Token.isRepetition])
      rw [hu] at hrepeats
      cases hrepeats
    refine ⟨_, lex_beginning h, hvalid, _, by rw [hbranches]; exact List.mem_singleton_self _, [], text ++ rest, rfl,
      .start ((accepts_literal_append hany text true _).2 ⟨rest, rfl, ?_⟩)⟩
    exact .repeated (u := []) rfl rfl (by simp) (Nat.zero_le _) (by simp) (.done _ _)

/-- Only texts without special characters are found exactly: `x` is a character that they do not have. -/
theorem inert_of_found_iff {first : List Char} {rest : List (List Char)} {x : Char} (hx : x ≠ '\n')
    (hfresh : ∀ text ∈ first :: rest, text ≠ [] ∧ x ∉ text)
    (hread : (lex .between (alternatives first rest)).isSome = true)
    (h : ∀ s, s ≠ [] → (∀ c ∈ s, c = x ∨ ∃ text ∈ first :: rest, c ∈ text) →
      (Found (alternatives first rest) s ↔ s ∈ first :: rest)) :
    ∀ text ∈ first :: rest, inert text = true := by
  obtain ⟨ts, hts⟩ := Option.isSome_iff_exists.1 hread
  have hvalid : Valid ts := by
    obtain ⟨ts', hts', hvalid, -⟩ := (h first (hfresh first List.mem_cons_self).1
      fun c hc => .inr ⟨first, List.mem_cons_self, hc⟩).2 List.mem_cons_self
    rw [hts] at hts'
    cases hts'
    exact hvalid
  -- what an alternative accepts is one of the texts
  have hlisted : ∀ {branch : List Token} {before s : List Char}, branch ∈ branches ts →
      Accepts branch before.isEmpty s → before ++ s ≠ [] →
        (∀ c ∈ before ++ s, c = x ∨ ∃ text ∈ first :: rest, c ∈ text) → before ++ s ∈ first :: rest :=
    fun {branch before s} hbranch haccepts hne hchars =>
      (h _ hne hchars).1 ⟨ts, hts, hvalid, branch, hbranch, before, s, rfl, haccepts⟩
  by_contra hnot
  have hsome : ((first :: rest).toFinset.filter fun text => inert text = false).Nonempty := by
    push Not at hnot
    obtain ⟨text, htext, hinert⟩ := hnot
    exact ⟨text, Finset.mem_filter.2 ⟨List.mem_toFinset.2 htext, by simpa using hinert⟩⟩
  -- a largest text with special characters
  obtain ⟨largest, hmem, hmax⟩ := Finset.exists_max_image _ size hsome
  obtain ⟨hmem, hspecial⟩ := Finset.mem_filter.1 hmem
  have hmem := List.mem_toFinset.1 hmem
  have hchars : ∀ c ∈ largest, c = x ∨ ∃ text ∈ first :: rest, c ∈ text := fun c hc => .inr ⟨largest, hmem, hc⟩
  obtain ⟨ts', hts', -, branch, hbranch, before, s, hsplit, haccepts⟩ :=
    (h largest (hfresh largest hmem).1 hchars).2 hmem
  rw [hts] at hts'
  cases hts'
  have hstart : .start ∈ branch := by
    by_contra hno
    have hfound := @hlisted _ (x :: before) _ hbranch (haccepts.behind hno) (by simp) (by
      intro c hc
      rw [List.cons_append, ← hsplit] at hc
      rcases List.mem_cons.1 hc with hc | hc
      · exact .inl hc
      · exact hchars c hc)
    exact (hfresh _ hfound).2 (by simp)
  have hbefore : before = [] := by
    cases before with
    | nil => rfl
    | cons c before => exact absurd hstart (haccepts.not_start rfl)
  rw [hbefore, List.nil_append] at hsplit
  rw [hbefore, ← hsplit] at haccepts
  have hfinish : .finish ∈ branch := by
    by_contra hno
    have hfound := @hlisted _ [] _ hbranch (haccepts.before hno [x]) (by simp) (by
      intro c hc
      rw [List.nil_append] at hc
      rcases List.mem_append.1 hc with hc | hc
      · exact hchars c hc
      · exact .inl (List.mem_singleton.1 hc))
    exact (hfresh _ hfound).2 (by simp)
  have hspelled : Spelled branch largest := by
    rcases haccepts.varies_or_spelled hx hfinish with hvaries | hspelled
    · exfalso
      obtain ⟨s', hs', hold, hnew⟩ := hvaries (first :: rest).flatten.length
      have hne : s' ≠ [] := by
        rintro rfl
        simp at hnew
      have hfound := @hlisted _ [] _ hbranch hs' hne (fun c hc => (hold c hc).elim (hchars c) .inl)
      rcases hnew with hnew | hlong
      · exact (hfresh _ hfound).2 hnew
      · exact absurd (List.sublist_flatten_of_mem hfound).length_le (not_le.2 hlong)
    · exact hspelled
  obtain ⟨text, htext, us, hus, hpart⟩ := (mem_branches_alternatives hts).1 hbranch
  cases hinert : inert text with
  | true =>
    rw [anchored_of_inert hinert] at hus
    cases hus
    rw [branches_of_inert, List.mem_singleton] at hpart
    rw [hpart, accepts_anchored] at haccepts
    rw [haccepts.2, hinert] at hspecial
    cases hspecial
  | false =>
    have hlt := hspelled.size_lt hus hinert hpart hfinish
    exact absurd (hmax text (Finset.mem_filter.2 ⟨List.mem_toFinset.2 htext, hinert⟩)) (not_le.2 hlt)

end SearchPattern
