import OrionBroker.BsonPath
import OrionBroker.MergeAttr

/-!
# Entity documents and the updates made to them

A document of the `entities` collection, with the fields of the database model.  The attributes stay a BSON object,
since the updates reach into it with dotted paths; the other fields that an update can touch have a fixed form.

`applyUpdate` gives the four operators that the broker composes their documented meaning on such a document.  An
update with two conflicting paths is refused as a whole.  `applyUpdate_compose` describes the result of the updates
of `updateEntity`, for all actions but the replacement of the whole `attrs` field.
-/

namespace OrionBroker

open Bson

structure Location where
  attrName : String
  coords : BSONObj
deriving DecidableEq

structure EntityDoc where
  id : String
  /-- Empty when the document has no type. -/
  type : String
  servicePath : String
  attrNames : List String
  attrs : BSONObj
  creDate : Option Int
  modDate : Option Int
  location : Option Location
deriving DecidableEq

/-- An update document; both array operators are about `attrNames`. -/
structure Update where
  set : List (String × BSONValue) := []
  unset : List String := []
  addToSet : List String := []
  pullAll : List String := []

namespace EntityDoc

def setPath (d : EntityDoc) : List String → BSONValue → Option EntityDoc
  | ["attrs"], .object o => some { d with attrs := o }
  | "attrs" :: k :: ks, v =>
    match setIn (k :: ks) v (some (.object d.attrs)) with
    | some (.object o) => some { d with attrs := o }
    | _ => none
  | ["attrNames"], .array items =>
    some { d with attrNames := items.filterMap fun | .string s => some s | _ => none }
  | ["modDate"], .int n => some { d with modDate := some n }
  | ["location"], .object o =>
    some { d with location := some ⟨getStringFieldF o "attrName", embeddedObject ((o.lookup "coords").getD .null)⟩ }
  | _, _ => none

def unsetPath (d : EntityDoc) : List String → EntityDoc
  | "attrs" :: k :: ks => { d with attrs := embeddedObject (unsetIn (k :: ks) (.object d.attrs)) }
  | ["location"] => { d with location := none }
  | _ => d

def setPaths : EntityDoc → List (String × BSONValue) → Option EntityDoc
  | d, [] => some d
  | d, (p, v) :: es => (d.setPath (splitPath p) v).bind fun d' => setPaths d' es

end EntityDoc

/-- The paths that an update touches. -/
def Update.paths (u : Update) : List (List String) :=
  u.set.map (fun e => splitPath e.1) ++ u.unset.map splitPath ++
    if u.addToSet = [] ∧ u.pullAll = [] then [] else [["attrNames"]]

/-- The document after an update, if the server accepts it. -/
def applyUpdate (d : EntityDoc) (u : Update) : Option EntityDoc :=
  if ConflictFree u.paths then
    (d.setPaths u.set).map fun d₁ =>
      let d₂ := u.unset.foldl (fun x p => x.unsetPath (splitPath p)) d₁
      { d₂ with attrNames := pullAll u.pullAll (addToSet u.addToSet d₂.attrNames) }
  else none

/-! ### The fields below `attrs` -/

/-- The path of an attribute key. -/
def composedName (effectiveName : String) : String := "attrs" ++ "." ++ effectiveName

/-- The entries of an update that write attributes, as paths below `attrs`. -/
def attrPaths (es : List (String × BSONValue)) : List (List String × BSONValue) :=
  es.map fun e => (splitPath e.1, e.2)

theorem splitPath_composedName (k : String) : splitPath (composedName k) = "attrs" :: splitPath k :=
  splitPath_append k (by decide)

theorem splitPath_ne_nil (p : String) : splitPath p ≠ [] := by
  unfold splitPath
  rw [ne_eq, List.map_eq_nil_iff]
  exact List.splitOnP_ne_nil _ _

theorem setPath_attrs (d : EntityDoc) {p : List String} (hp : p ≠ []) (v : BSONValue) :
    d.setPath ("attrs" :: p) v =
      (setIn p v (some (.object d.attrs))).map fun x => { d with attrs := embeddedObject x } := by
  obtain ⟨k, ks, rfl⟩ := List.exists_cons_of_ne_nil hp
  have hobj : d.setPath ("attrs" :: k :: ks) v =
      match setIn (k :: ks) v (some (.object d.attrs)) with
      | some (.object o) => some { d with attrs := o }
      | _ => none := by
    unfold EntityDoc.setPath
    rfl
  rw [hobj]
  rcases h : setIn (k :: ks) v (some (.object d.attrs)) with _ | x
  · rfl
  · obtain ⟨y, -, rfl⟩ := setIn_object h
    rfl

theorem setPaths_append (d : EntityDoc) (es fs : List (String × BSONValue)) :
    d.setPaths (es ++ fs) = (d.setPaths es).bind fun d' => d'.setPaths fs := by
  induction es generalizing d with
  | nil => rfl
  | cons e es ih =>
    obtain ⟨p, v⟩ := e
    show (d.setPath (splitPath p) v).bind (fun d' => d'.setPaths (es ++ fs)) =
      ((d.setPath (splitPath p) v).bind fun d' => d'.setPaths es).bind _
    rw [Option.bind_assoc]
    congr 1
    funext d'
    exact ih d'

/-- Writing attributes touches nothing but `attrs`. -/
theorem setPaths_attrs (d : EntityDoc) (es : List (String × BSONValue)) :
    d.setPaths (es.map fun e => (composedName e.1, e.2)) =
      (setAll (attrPaths es) (.object d.attrs)).map fun x => { d with attrs := embeddedObject x } := by
  induction es generalizing d with
  | nil => rfl
  | cons e es ih =>
    obtain ⟨k, v⟩ := e
    have hne := splitPath_ne_nil k
    show (d.setPath (splitPath (composedName k)) v).bind (fun d' => d'.setPaths _) =
      ((setIn (splitPath k) v (some (.object d.attrs))).bind (setAll (attrPaths es))).map _
    rw [splitPath_composedName, setPath_attrs d hne]
    rcases h : setIn (splitPath k) v (some (.object d.attrs)) with _ | x
    · rfl
    · obtain ⟨l, ls, hl⟩ := List.exists_cons_of_ne_nil hne
      rw [hl] at h
      obtain ⟨y, -, rfl⟩ := setIn_object h
      exact ih _

theorem unsetPath_attrs (d : EntityDoc) {p : List String} (hp : p ≠ []) :
    d.unsetPath ("attrs" :: p) = { d with attrs := embeddedObject (unsetIn p (.object d.attrs)) } := by
  obtain ⟨k, ks, rfl⟩ := List.exists_cons_of_ne_nil hp
  unfold EntityDoc.unsetPath
  rfl

theorem foldl_unsetPath_attrs (d : EntityDoc) (ks : List String) :
    (ks.map composedName).foldl (fun x p => x.unsetPath (splitPath p)) d =
      { d with attrs := embeddedObject (unsetAll (ks.map splitPath) (.object d.attrs)) } := by
  induction ks generalizing d with
  | nil => rfl
  | cons k ks ih =>
    have hne := splitPath_ne_nil k
    rw [List.map_cons, List.foldl_cons, splitPath_composedName, unsetPath_attrs d hne, ih]
    obtain ⟨l, ls, hl⟩ := List.exists_cons_of_ne_nil hne
    obtain ⟨o', ho', -⟩ := unsetIn_object l ls d.attrs
    have hstep : unsetIn (splitPath k) (.object d.attrs) = .object o' := by rw [hl, ho']
    simp only [List.map_cons, unsetAll, List.foldl_cons, hstep, embeddedObject]

/-! ### The composed update -/

/-- `BSON(attrName << ... << coords << ...)`. -/
def Location.toBson (l : Location) : BSONValue :=
  .object [("attrName", .string l.attrName), ("coords", .object l.coords)]

/-- The update that `updateEntity` composes: attributes to set and to unset, the new modification date, and the
location, written or removed. -/
def composedUpdate (es : List (String × BSONValue)) (now : Int) (location : Option Location) (ks push pull : List String) :
    Update where
  set := es.map (fun e => (composedName e.1, e.2)) ++
    ("modDate", .int now) :: (location.toList.map fun l => ("location", l.toBson))
  unset := ks.map composedName ++ if location.isSome then [] else ["location"]
  addToSet := push
  pullAll := pull

private theorem setPath_modDate (d : EntityDoc) (n : Int) :
    d.setPath (splitPath "modDate") (.int n) = some { d with modDate := some n } := by
  rw [splitPath_of_no_dot (by decide)]
  unfold EntityDoc.setPath
  rfl

private theorem setPath_location (d : EntityDoc) (l : Location) :
    d.setPath (splitPath "location") l.toBson = some { d with location := some l } := by
  rw [splitPath_of_no_dot (by decide)]
  unfold EntityDoc.setPath Location.toBson
  simp [getStringFieldF, lookup_cons_eq, embeddedObject]

private theorem unsetPath_location (d : EntityDoc) :
    d.unsetPath (splitPath "location") = { d with location := none } := by
  rw [splitPath_of_no_dot (by decide)]
  unfold EntityDoc.unsetPath
  rfl

/-- The attributes after an update: written, then removed. -/
def UpdatedAttrs (attrs attrs' : BSONObj) (es : List (String × BSONValue)) (ks : List String) : Prop :=
  ConflictFree ((attrPaths es).map Prod.fst ++ ks.map splitPath) ∧
    ∃ o, setAll (attrPaths es) (.object attrs) = some (.object o) ∧
      unsetAll (ks.map splitPath) (.object o) = .object attrs'

private theorem conflictFree_attrPaths {es : List (String × BSONValue)} {ks : List String} {ps : List (List String)}
    (hsub : ((es.map fun e => splitPath (composedName e.1)) ++ ks.map fun k => splitPath (composedName k)).Sublist ps)
    (h : ConflictFree ps) : ConflictFree ((attrPaths es).map Prod.fst ++ ks.map splitPath) := by
  have h1 := List.Pairwise.sublist hsub h
  have heq : (es.map fun e => splitPath (composedName e.1)) ++ ks.map (fun k => splitPath (composedName k)) =
      ((attrPaths es).map Prod.fst ++ ks.map splitPath).map ("attrs" :: ·) := by
    simp [attrPaths, splitPath_composedName, Function.comp_def]
  rw [heq, List.pairwise_map] at h1
  refine h1.imp ?_
  intro p q hpq
  simpa [conflicts] using hpq

/-- What a composed update does: it changes the attributes below `attrs`, the names, the modification date and the
location, each as it says. -/
theorem applyUpdate_compose {d d' : EntityDoc} {es : List (String × BSONValue)} {now : Int} {location : Option Location}
    {ks push pull : List String} (h : applyUpdate d (composedUpdate es now location ks push pull) = some d') :
    UpdatedAttrs d.attrs d'.attrs es ks ∧
      d' = { d with
        attrs := d'.attrs, attrNames := pullAll pull (addToSet push d.attrNames), modDate := some now,
        location := location } := by
  unfold applyUpdate at h
  split at h
  · rename_i hc
    obtain ⟨d₁, h₁, rfl⟩ := Option.map_eq_some_iff.1 h
    have hcf : ConflictFree ((attrPaths es).map Prod.fst ++ ks.map splitPath) := by
      refine conflictFree_attrPaths ?_ hc
      simp only [Update.paths, composedUpdate, List.map_append, List.map_map, Function.comp_def, List.append_assoc]
      refine List.Sublist.append_left ?_ _
      refine List.Sublist.trans ?_ (List.sublist_append_right _ _)
      exact List.sublist_append_left _ _
    have hset : d.setPaths (composedUpdate es now location ks push pull).set =
        (setAll (attrPaths es) (.object d.attrs)).map fun x =>
          { d with attrs := embeddedObject x, modDate := some now, location := location.or d.location } := by
      show d.setPaths (es.map (fun e => (composedName e.1, e.2)) ++ _) = _
      rw [setPaths_append, setPaths_attrs]
      rcases setAll (attrPaths es) (.object d.attrs) with _ | x
      · rfl
      · cases location with
        | none => simp [EntityDoc.setPaths, setPath_modDate]
        | some l => simp [EntityDoc.setPaths, setPath_modDate, setPath_location]
    rw [hset] at h₁
    obtain ⟨x, hx, rfl⟩ := Option.map_eq_some_iff.1 h₁
    have hne : ∀ e ∈ attrPaths es, e.1 ≠ [] := by
      intro e he
      obtain ⟨f, -, rfl⟩ := List.mem_map.1 he
      exact splitPath_ne_nil _
    obtain ⟨o, rfl, -⟩ := setAll_object hne hx
    have hne' : ∀ p ∈ ks.map splitPath, p ≠ [] := by
      intro p hp
      obtain ⟨k, -, rfl⟩ := List.mem_map.1 hp
      exact splitPath_ne_nil _
    obtain ⟨o', ho', -⟩ := unsetAll_object (o := o) hne'
    have hunset : (composedUpdate es now location ks push pull).unset.foldl (fun x p => x.unsetPath (splitPath p))
        { d with attrs := o, modDate := some now, location := location.or d.location } =
        { d with attrs := o', modDate := some now, location := location } := by
      show (ks.map composedName ++ _).foldl _ _ = _
      rw [List.foldl_append, foldl_unsetPath_attrs]
      simp only [ho', embeddedObject]
      cases location with
      | none => simp [unsetPath_location]
      | some l => simp
    simp only [embeddedObject, hunset]
    exact ⟨⟨hcf, o, hx, ho'⟩, rfl⟩
  · cases h

end OrionBroker
