import OrionBroker.Registrations
import OrionBroker.TriggeredSubscription
import OrionBroker.WhileLoop

/-!
# Queries and their connections

`entitiesQuery` and `registrationsQuery` (`MongoGlobal.cpp`), `processContextElement` and
`addTriggeredSubscriptions_noCache` (`MongoCommonUpdate.cpp`) get a connection, query with it and read the documents one
by one (`documents`).  The connection has to be given back on every way out: when the query fails, in the handlers of
the exceptions that the cursor raises, and after the loop.
-/

namespace OrionBroker.CursorLoops

open Bson

/-! ### The driver of the database -/

/-- What the driver raises: an `AssertionException`, another `std::exception`, or something else. -/
inductive Thrown
  | assertion (what : String)
  | std (what : String)
  | other

/-- The text of an exception in the handlers of `collectionQuery`. -/
def Thrown.what : Thrown → String
  | .assertion what | .std what => what
  | .other => "generic"

/-- A cursor: its answers to the calls of `more` and `nextSafe` in each turn of a loop. -/
structure Cursor (Doc : Type) where
  more : Nat → Except Thrown Bool
  nextSafe : Nat → Except Thrown Doc

/-- The answers of a connection to a query; the cursor can be NULL. -/
structure Connection (Doc : Type) where
  count : Except Thrown Nat
  query : Except Thrown (Option (Cursor Doc))

/-- The calls about the connection, in their order. -/
inductive Use
  | getMongoConnection
  | releaseMongoConnection
  deriving DecidableEq

/-- Each connection that was obtained has been given back, once and after it. -/
def GivenBack (uses : List Use) : Prop :=
  uses = [] ∨ uses = [.getMongoConnection, .releaseMongoConnection]

/-- What a function returns, with its calls about the connection. -/
structure Outcome (β : Type) where
  value : β
  uses : List Use

variable {Doc σ β : Type}

/-- The name of a collection and the text of a query. -/
structure QueryText where
  col : String
  q : String

def QueryText.databaseError (text : QueryText) (what : String) : String :=
  "Database Error (collection: " ++ text.col ++ " - query(): " ++ text.q ++ " - exception: " ++ what ++ ")"

def collectionQuery (text : QueryText) : Option (Connection Doc) → Except String (Cursor Doc)
  | none => .error "null DB connection"
  | some connection =>
    match connection.query with
    | .error e => .error (text.databaseError e.what)
    | .ok none =>
      .error (text.databaseError "Null cursor from mongo (details on this is found in the source code)")
    | .ok (some cursor) => .ok cursor

/-- The documents are counted first, if this is asked for. -/
def collectionRangedQuery (text : QueryText) (count : Bool) :
    Option (Connection Doc) → Except String (Cursor Doc)
  | none => .error "null DB connection"
  | some connection =>
    match count, connection.count with
    | true, .error e => .error (text.databaseError e.what)
    | _, _ => collectionQuery text (some connection)

def moreSafe : Except Thrown Bool → Bool
  | .ok more => more
  | .error _ => false

/-- A turn of `while (moreSafe(cursor))`: the exceptions of `nextSafe` are handled by `caught`, a document by `body`.
Either goes on or returns from the function; `ended` is what the function does after the loop. -/
def documents (cursor : Cursor Doc) (caught : Thrown → σ → σ ⊕ Outcome β) (body : Doc → σ → σ ⊕ Outcome β)
    (ended : σ → Outcome β) : Nat × σ → (Nat × σ) ⊕ Outcome β
  | (turn, s) =>
    if moreSafe (cursor.more turn) then
      (match cursor.nextSafe turn with
        | .error e => caught e s
        | .ok r => body r s).map (turn + 1, ·) id
    else
      .inr (ended s)

/-- The handler of the loops that use `nextSafeOrError`: the error is logged, and the loop continues. -/
def continued (_ : Thrown) (s : σ) : σ ⊕ Outcome β := .inl s

/-- A function that gets a connection, returns `refused` if the query fails, and reads the documents otherwise; nothing
as long as it has not returned within a number of turns. -/
def withCursor (query : Option (Connection Doc) → Except String (Cursor Doc)) (refused : String → β)
    (loop : Cursor Doc → Nat × σ → (Nat × σ) ⊕ Outcome β) (s : σ) (turns : Nat)
    (connection : Option (Connection Doc)) : Option (Outcome β) :=
  match query connection with
  | .error err => some { value := refused err, uses := [.getMongoConnection, .releaseMongoConnection] }
  | .ok cursor =>
    (WhileLoop.run (loop cursor) turns (0, s)).map fun out => { out with uses := .getMongoConnection :: out.uses }

/-! ### `entitiesQuery` -/

/-- The arguments of `entitiesQuery`; `cer` is the constructor of a response from a document, and `limitReached` says
whether the caller asks for it. -/
structure EntitiesRequest (Doc : Type) where
  text : QueryText
  enV : List EntityId
  attrL : List String
  limit : Nat
  limitReached : Bool
  count : Bool
  cer : Doc → ContextElementResponse

structure EntitiesAnswer where
  ok : Bool
  cerV : List ContextElementResponse
  limitReached : Option Bool := none
  err : String := ""

namespace EntitiesRequest

variable (req : EntitiesRequest Doc)

/-- An attribute that is asked for and not found is added, with `found` set to false. -/
def addAttribute (caV : List ContextAttribute) (attrName : String) : List ContextAttribute :=
  if caV.any fun caP => attrName = caP.name then caV
  else caV ++ [{ name := attrName, type := "", found := false }]

/-- The response for a document. -/
def found (r : Doc) : ContextElementResponse :=
  let cer := req.cer r
  { cer with
    contextElement :=
      { cer.contextElement with
        contextAttributeVector := req.attrL.foldl addAttribute cer.contextElement.contextAttributeVector }
    statusCode := { code := .SccOk } }

/-- The response for an `AssertionException`; its text is not returned as it is. -/
def failed (exErr : String) : ContextElementResponse where
  contextElement :=
    { entityId :=
        match req.enV with
        | [en] => en
        | _ => { id := "", type := "", isPattern := "" }
      contextAttributeVector := [] }
  statusCode :=
    { code := .SccReceiverInternalError
      details :=
        if "Exterior shell of polygon is invalid".toList.isPrefixOf exErr.toList then
          "Exterior shell of polygon is invalid"
        else
          "Error at querying MongoDB" }

/-- An entity of the request that is not a pattern and not in the response is added. -/
def addEntity (cerV : List ContextElementResponse) (en : EntityId) : List ContextElementResponse :=
  if en.isPattern = "true" then cerV
  else if cerV.any fun cer => cer.contextElement.entityId.id = en.id && cer.contextElement.entityId.type = en.type then
    cerV
  else
    cerV ++
      [{ contextElement :=
          { entityId := { id := en.id, type := en.type, isPattern := "false" }
            contextAttributeVector :=
              req.attrL.map fun attrName => { name := attrName, type := "", found := false } }
         statusCode := { code := .SccOk } }]

/-- What `entitiesQuery` does with the responses when it has given back the connection. -/
def complete (cerV : List ContextElementResponse) : EntitiesAnswer :=
  if req.limitReached then
    if req.limit ≤ cerV.length then { ok := true, cerV := cerV, limitReached := some true }
    else { ok := true, cerV := req.enV.foldl req.addEntity cerV, limitReached := some false }
  else
    { ok := true, cerV := req.enV.foldl req.addEntity cerV }

/-- The three handlers of `nextSafe` in `entitiesQuery`. -/
def caught : Thrown → List ContextElementResponse → List ContextElementResponse ⊕ Outcome EntitiesAnswer
  | .assertion what, cerV =>
    -- returns without `releaseMongoConnection`
    .inr { value := { ok := true, cerV := cerV ++ [req.failed what] }, uses := [] }
  | .std what, cerV =>
    .inr { value := { ok := false, cerV := cerV, err := what }, uses := [.releaseMongoConnection] }
  | .other, cerV =>
    .inr { value := { ok := false, cerV := cerV, err := "generic exception at nextSafe()" }
           uses := [.releaseMongoConnection] }

def loop (cursor : Cursor Doc) :
    Nat × List ContextElementResponse → (Nat × List ContextElementResponse) ⊕ Outcome EntitiesAnswer :=
  documents cursor req.caught (fun r cerV => .inl (cerV ++ [req.found r]))
    fun cerV => { value := req.complete cerV, uses := [.releaseMongoConnection] }

end EntitiesRequest

def entitiesQuery (req : EntitiesRequest Doc) : Nat → Option (Connection Doc) → Option (Outcome EntitiesAnswer) :=
  withCursor (collectionRangedQuery req.text req.count) (fun err => { ok := false, cerV := [], err := err }) req.loop []

/-! ### The other functions -/

/-- The arguments of `registrationsQuery` that are used with a document. -/
structure RegistrationsRequest where
  text : QueryText
  enV : List EntityId
  attrL : List String
  count : Bool

def registrationsQuery (regexec : String → String → Bool) (req : RegistrationsRequest) :
    Nat → Option (Connection BSONObj) → Option (Outcome (Bool × List ContextRegistrationResponse × String)) :=
  withCursor (collectionRangedQuery req.text req.count) (fun err => (false, [], err))
    (fun cursor =>
      documents cursor continued
        (fun r crrV => .inl (crrV ++ (arrayItems r "contextRegistration").filterMap fun cr =>
          processContextRegistrationElement regexec req.enV req.attrL (embeddedObject cr)))
        fun crrV => { value := (true, crrV, ""), uses := [.releaseMongoConnection] })
    []

/-- A document as it is read, with whether it has a field `_id`. -/
structure Fetched (Doc : Type) where
  idField : Bool
  doc : Doc

/-- `addTriggeredSubscriptions_noCache`, with the map of subscriptions before it. -/
def addTriggeredSubscriptions_noCache {Item : Type} (code : FilterCode Item) (text : QueryText)
    (modifiedAttrs : List String) (subs : TriggeredMap Item) :
    Nat → Option (Connection (Fetched Csub)) → Option (Outcome (Bool × TriggeredMap Item)) :=
  withCursor (collectionQuery text) (fun _ => (false, subs))
    (fun cursor =>
      documents cursor continued
        (fun r subs =>
          if !r.idField then .inl subs
          else if r.doc.id ∈ subs.map Prod.fst then .inl subs
          else if !someEmptyCondValue r.doc && !condValueAttrMatch r.doc modifiedAttrs then .inl subs
          else
            match r.doc.stringFilter code with
            | none => .inr { value := (false, subs), uses := [.releaseMongoConnection] }
            | some filter => .inl (subs.insert r.doc.id (r.doc.triggered filter)))
        fun subs => { value := (true, subs), uses := [.releaseMongoConnection] })
    subs

/-- `processContextElement`: the checks before the query can answer the element, and so can a query that fails;
`update` is what is done with the entities found, when the connection has been given back. -/
def processContextElement (checks : Option β) (text : QueryText) (refused : String → β) (update : List EntityDoc → β)
    (turns : Nat) (connection : Option (Connection (Fetched EntityDoc))) : Option (Outcome β) :=
  match checks with
  | some answer => some { value := answer, uses := [] }
  | none =>
    withCursor (collectionQuery text) refused
      (fun cursor =>
        documents cursor continued (fun r results => .inl (if r.idField then results ++ [r.doc] else results))
          fun results => { value := update results, uses := [.releaseMongoConnection] })
      [] turns connection

/-! ### The connection of a call -/

/-- A call of one of the functions, with the connection it gets; without it, if this is NULL. -/
inductive Call (Doc Item β : Type)
  | entitiesQuery (req : EntitiesRequest Doc) (connection : Option (Connection Doc))
  | registrationsQuery (regexec : String → String → Bool) (req : RegistrationsRequest)
    (connection : Option (Connection BSONObj))
  | processContextElement (checks : Option β) (text : QueryText) (refused : String → β) (update : List EntityDoc → β)
    (connection : Option (Connection (Fetched EntityDoc)))
  | addTriggeredSubscriptions_noCache (code : FilterCode Item) (text : QueryText) (modifiedAttrs : List String)
    (subs : TriggeredMap Item) (connection : Option (Connection (Fetched Csub)))

/-- What the call has done with the connection when it returns; nothing as long as it has not returned. -/
def Call.uses {Item : Type} (turns : Nat) : Call Doc Item β → Option (List Use)
  | .entitiesQuery req connection => (CursorLoops.entitiesQuery req turns connection).map Outcome.uses
  | .registrationsQuery regexec req connection =>
    (CursorLoops.registrationsQuery regexec req turns connection).map Outcome.uses
  | .processContextElement checks text refused update connection =>
    (CursorLoops.processContextElement checks text refused update turns connection).map Outcome.uses
  | .addTriggeredSubscriptions_noCache code text modifiedAttrs subs connection =>
    (CursorLoops.addTriggeredSubscriptions_noCache code text modifiedAttrs subs turns connection).map Outcome.uses

/-- From some turn on, the first exception that `nextSafe` raises is an `AssertionException`. -/
inductive Cursor.AssertsFrom (cursor : Cursor Doc) : Nat → Prop
  | here {turn : Nat} {what : String} : moreSafe (cursor.more turn) = true →
    cursor.nextSafe turn = .error (.assertion what) → AssertsFrom cursor turn
  | later {turn : Nat} {r : Doc} : moreSafe (cursor.more turn) = true → cursor.nextSafe turn = .ok r →
    AssertsFrom cursor (turn + 1) → AssertsFrom cursor turn

/-- The call is one of `entitiesQuery` whose query succeeds and whose cursor raises an `AssertionException` before any
other exception. -/
def Call.Asserts {Item : Type} : Call Doc Item β → Prop
  | .entitiesQuery req connection =>
    ∃ cursor, collectionRangedQuery req.text req.count connection = .ok cursor ∧ cursor.AssertsFrom 0
  | _ => False

section GivenBack

variable {cursor : Cursor Doc} {caught : Thrown → σ → σ ⊕ Outcome β} {body : Doc → σ → σ ⊕ Outcome β}
  {ended : σ → Outcome β}

/-- The handler of an exception and the code for a document are left only with the connection given back. -/
def Releases (f : σ → σ ⊕ Outcome β) : Prop := ∀ s out, f s = .inr out → out.uses = [.releaseMongoConnection]

theorem releases_continued (e : Thrown) : Releases (continued (β := β) e : σ → σ ⊕ Outcome β) := by
  intro s out h
  cases h

/-- A loop that is left only with the connection given back. -/
theorem documents_releases (hcaught : ∀ e, Releases (caught e)) (hbody : ∀ r, Releases (body r))
    (hended : ∀ s, (ended s).uses = [.releaseMongoConnection]) {turns : Nat} {s : Nat × σ} {out : Outcome β}
    (h : WhileLoop.run (documents cursor caught body ended) turns s = some out) :
    out.uses = [.releaseMongoConnection] := by
  induction turns generalizing s with
  | zero => cases h
  | succ turns ih =>
    cases hturn : documents cursor caught body ended s with
    | inl s' =>
      rw [WhileLoop.run_of_goesOn hturn] at h
      exact ih h
    | inr out' =>
      rw [WhileLoop.run_of_leaves hturn] at h
      cases h
      obtain ⟨turn, s⟩ := s
      simp only [documents] at hturn
      split at hturn
      · split at hturn
        · rename_i e he
          cases hc : caught e s with
          | inl s' => simp [hc] at hturn
          | inr out' =>
            rw [hc] at hturn
            cases hturn
            exact hcaught e s _ hc
        · rename_i r hr
          cases hb : body r s with
          | inl s' => simp [hb] at hturn
          | inr out' =>
            rw [hb] at hturn
            cases hturn
            exact hbody r s _ hb
      · cases hturn
        exact hended s

/-- The connection of a function is given back if and only if its loop gives it back. -/
theorem givenBack_withCursor {query : Option (Connection Doc) → Except String (Cursor Doc)} {refused : String → β}
    {loop : Cursor Doc → Nat × σ → (Nat × σ) ⊕ Outcome β} {s : σ} {turns : Nat}
    {connection : Option (Connection Doc)} {P : Prop} {out : Outcome β}
    (h : withCursor query refused loop s turns connection = some out)
    (hrefused : ∀ err, query connection = .error err → P)
    (hloop : ∀ cursor out', query connection = .ok cursor → WhileLoop.run (loop cursor) turns (0, s) = some out' →
      (out'.uses = [.releaseMongoConnection] ↔ P)) :
    GivenBack out.uses ↔ P := by
  unfold withCursor at h
  cases hquery : query connection with
  | error err =>
    rw [hquery] at h
    cases h
    exact iff_of_true (.inr rfl) (hrefused err hquery)
  | ok cursor =>
    rw [hquery] at h
    obtain ⟨out', hrun, rfl⟩ := Option.map_eq_some_iff.1 h
    rw [← hloop cursor out' hquery hrun]
    simp [GivenBack]

/-- A function whose loop is left only with the connection given back. -/
theorem givenBack_of_releases {query : Option (Connection Doc) → Except String (Cursor Doc)} {refused : String → β}
    {loop : Cursor Doc → Nat × σ → (Nat × σ) ⊕ Outcome β} {s : σ} {turns : Nat}
    {connection : Option (Connection Doc)} {out : Outcome β}
    (h : withCursor query refused loop s turns connection = some out)
    (hloop : ∀ cursor out', WhileLoop.run (loop cursor) turns (0, s) = some out' →
      out'.uses = [.releaseMongoConnection]) :
    GivenBack out.uses :=
  (givenBack_withCursor h (P := True) (fun _ _ => trivial) fun cursor out' _ hrun =>
    iff_of_true (hloop cursor out' hrun) trivial).2 trivial

theorem entities_loop_iff (req : EntitiesRequest Doc) {turns turn : Nat} {cerV : List ContextElementResponse}
    {out : Outcome EntitiesAnswer} (h : WhileLoop.run (req.loop cursor) turns (turn, cerV) = some out) :
    out.uses = [.releaseMongoConnection] ↔ ¬cursor.AssertsFrom turn := by
  induction turns generalizing turn cerV with
  | zero => cases h
  | succ turns ih =>
    by_cases hmore : moreSafe (cursor.more turn) = true
    · cases hnext : cursor.nextSafe turn with
      | ok r =>
        have hturn : req.loop cursor (turn, cerV) = .inl (turn + 1, cerV ++ [req.found r]) := by
          simp [EntitiesRequest.loop, documents, hmore, hnext]
        rw [WhileLoop.run_of_goesOn hturn] at h
        rw [ih h, not_iff_not]
        refine ⟨.later hmore hnext, ?_⟩
        rintro (⟨-, hassert⟩ | ⟨-, -, hlater⟩)
        · cases hnext.symm.trans hassert
        · exact hlater
      | error e =>
        have hturn : req.loop cursor (turn, cerV) = (req.caught e cerV).map (turn + 1, ·) id := by
          simp [EntitiesRequest.loop, documents, hmore, hnext]
        cases e with
        | assertion what =>
          rw [WhileLoop.run_of_leaves hturn] at h
          cases h
          exact iff_of_false (by simp) (not_not.2 (.here hmore hnext))
        | std what | other =>
          rw [WhileLoop.run_of_leaves hturn] at h
          cases h
          refine iff_of_true rfl ?_
          rintro (⟨-, hassert⟩ | ⟨-, hok, -⟩)
          · cases hnext.symm.trans hassert
          · cases hnext.symm.trans hok
    · have hturn : req.loop cursor (turn, cerV) =
          .inr { value := req.complete cerV, uses := [.releaseMongoConnection] } := by
        simp [EntitiesRequest.loop, documents, hmore]
      rw [WhileLoop.run_of_leaves hturn] at h
      cases h
      refine iff_of_true rfl ?_
      rintro (⟨hmore', -⟩ | ⟨hmore', -, -⟩)
      · exact hmore hmore'
      · exact hmore hmore'

end GivenBack

/-- A call that returns has given back its connection exactly once, unless it is one of `entitiesQuery` that returns
from its handler of `AssertionException`. -/
theorem givenBack_iff {Item : Type} (call : Call Doc Item β) {turns : Nat} {uses : List Use}
    (h : call.uses turns = some uses) : GivenBack uses ↔ ¬call.Asserts := by
  cases call with
  | entitiesQuery req connection =>
    obtain ⟨out, hout, rfl⟩ := Option.map_eq_some_iff.1 h
    refine givenBack_withCursor hout ?_ ?_
    · rintro err herr ⟨cursor, hok, -⟩
      cases herr.symm.trans hok
    · intro cursor out' hquery hrun
      rw [entities_loop_iff req hrun, not_iff_not]
      refine ⟨fun hasserts => ⟨cursor, hquery, hasserts⟩, ?_⟩
      rintro ⟨cursor', hquery', hasserts⟩
      cases hquery.symm.trans hquery'
      exact hasserts
  | registrationsQuery regexec req connection =>
    obtain ⟨out, hout, rfl⟩ := Option.map_eq_some_iff.1 h
    refine iff_of_true (givenBack_of_releases hout fun cursor out' hrun => ?_) id
    exact documents_releases releases_continued (fun r s out h => by cases h) (fun s => rfl) hrun
  | processContextElement checks text refused update connection =>
    obtain ⟨out, hout, rfl⟩ := Option.map_eq_some_iff.1 h
    unfold processContextElement at hout
    cases checks with
    | some answer =>
      cases hout
      exact iff_of_true (.inl rfl) id
    | none =>
      refine iff_of_true (givenBack_of_releases hout fun cursor out' hrun => ?_) id
      exact documents_releases releases_continued (fun r s out h => by cases h) (fun s => rfl) hrun
  | addTriggeredSubscriptions_noCache code text modifiedAttrs subs connection =>
    obtain ⟨out, hout, rfl⟩ := Option.map_eq_some_iff.1 h
    refine iff_of_true (givenBack_of_releases hout fun cursor out' hrun => ?_) id
    refine documents_releases releases_continued (fun r s out h => ?_) (fun s => rfl) hrun
    split at h
    · cases h
    · split at h
      · cases h
      · split at h
        · cases h
        · split at h
          · cases h
            rfl
          · cases h

/-- A cursor with one document, at which `nextSafe` raises an exception. -/
def raising (e : Thrown) : Cursor Doc where
  more turn := .ok (turn = 0)
  nextSafe _ := .error e

/-- A query of all entities, answered by the server with an exception. -/
def allEntities (e : Thrown) : Call EntityDoc Unit Unit :=
  .entitiesQuery
    { text := { col := "orion.entities", q := "{}" }
      enV := []
      attrL := []
      limit := 20
      limitReached := false
      count := false
      cer := ContextElementResponse.ofDoc }
    (some { count := .ok 1, query := .ok (some (raising e)) })

theorem givenBack_iff_generic :
    (allEntities .other).uses 2 = some [.getMongoConnection, .releaseMongoConnection] ∧
      (GivenBack [.getMongoConnection, .releaseMongoConnection] ↔ ¬(allEntities .other).Asserts) :=
  ⟨rfl, @givenBack_iff _ _ _ (allEntities .other) 2 _ rfl⟩

/-- After an `AssertionException` the connection is not given back. -/
theorem kept_after_assertion :
    ¬∀ (call : Call EntityDoc Unit Unit) (turns : Nat) (uses : List Use), call.uses turns = some uses →
      GivenBack uses := by
  intro hall
  have hkept : (allEntities (.assertion "Exterior shell of polygon is invalid")).uses 1 =
      some [.getMongoConnection] := rfl
  have hback := hall _ 1 _ hkept
  simp [GivenBack] at hback

end OrionBroker.CursorLoops
