import Mathlib

/-!
# Forbidden characters (`forbiddenChars.cpp`)

`forbiddenChars` is applied to values and, in the first version of the API, to identifiers too unless the broker
was started with the option for strict identifiers (`checkIdv1`); otherwise identifiers go through
`forbiddenIdChars`.  Both take a set of exceptions.  The characters of a string stand for its bytes: those of a
non-ASCII character are negative as `char` and fall under `*s <= 32`.
-/

namespace OrionBroker

inductive ApiVersion where
  | v1
  | v2
deriving DecidableEq

def commonForbidden (c : Char) : Bool := c ∈ ['<', '>', '"', '\'', '=', ';', '(', ')']

def forbiddenChars (s : String) (exceptions : List Char) : Bool :=
  s.toList.any fun c => !(c ∈ exceptions) && commonForbidden c

/-- The test of `forbiddenIdChars` on one character. -/
def idForbidden (c : Char) : Bool :=
  c.toNat ≥ 127 || c.toNat ≤ 32 || c ∈ ['?', '/', '#', '&'] || commonForbidden c

def forbiddenIdChars (checkIdv1 : Bool) (api : ApiVersion) (s : String) (exceptions : List Char) : Bool :=
  if api = .v1 ∧ checkIdv1 = false then
    forbiddenChars s exceptions
  else
    s.toList.any fun c => !(c ∈ exceptions) && idForbidden c

/-- An identifier accepted without exceptions has none of the common forbidden characters, whatever the version. -/
theorem not_commonForbidden_of_forbiddenIdChars {checkIdv1 : Bool} {api : ApiVersion} {s : String}
    (h : forbiddenIdChars checkIdv1 api s [] = false) {c : Char} (hc : c ∈ s.toList) : commonForbidden c = false := by
  unfold forbiddenIdChars at h
  split at h
  · have := (List.any_eq_false.1 h) c hc
    simpa using this
  · have := (List.any_eq_false.1 h) c hc
    simp only [List.not_mem_nil, decide_false, Bool.not_false, Bool.true_and, idForbidden, Bool.not_eq_true,
      Bool.or_eq_false_iff] at this
    exact this.2

theorem no_equals_of_forbiddenIdChars {checkIdv1 : Bool} {api : ApiVersion} {s : String}
    (h : forbiddenIdChars checkIdv1 api s [] = false) : '=' ∉ s.toList := by
  intro hc
  have := not_commonForbidden_of_forbiddenIdChars h hc
  revert this; decide

end OrionBroker
