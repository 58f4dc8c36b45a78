import OrionBroker.EntityParser
import OrionBroker.IsoDate

/-!
# Entities that are sent back (`Entity::render`, `parseEntity`)

What the broker has rendered should be accepted as the same entity when it is sent back, with its identity or, where that
is in the URL, without it.  An attribute that is named as the identity is not rendered, an empty type and an empty type of
a metadata are rendered as another one, and an entity without attributes is refused where the identity is in the URL;
`entity_reread_iff` says that this is all, but for the attributes of the type of dates, whose value is not the text that
was rendered.  Numbers are left out: they are written with six digits.
-/

namespace OrionBroker.EntityParser

open Bson JsonText AttributeParser ContextAttributeVector

section Reread

variable (getDouble : Int → Double) (isodate2str : Double → String) (parse8601Time : String → Int)

/-! ### The text of an entity -/

/-- The texts that are spliced into the text of an entity. -/
def entityTexts (e : Entity) : List String :=
  [e.id, e.type] ++ e.attributeVector.flatMap fun ca => (written isodate2str ca).texts

/-- A rendered attribute as a member of the entity. -/
def attributeMember (ca : ContextAttribute) : String × Json :=
  (ca.name, .object (normalizedMembers (written isodate2str ca)))

theorem denotesMember_piece {ca : ContextAttribute} (hn : (written isodate2str ca).Numberless)
    (hplain : ∀ s ∈ (written isodate2str ca).texts, PlainText s) :
    DenotesMember (piece isodate2str .NGSI_V2_NORMALIZED ca) (attributeMember isodate2str ca) := by
  have hpiece : piece isodate2str .NGSI_V2_NORMALIZED ca =
      ((written isodate2str ca).toJson OStream.toString isodate2str true .NGSI_V2_NORMALIZED false).toList := by
    rw [toJson_written]
    rfl
  have hname := (written_fields isodate2str ca).1
  unfold attributeMember
  rw [hpiece, ← hname]
  generalize written isodate2str ca = w at hn hplain
  have htype : PlainText (renderedType w.type) := by
    unfold renderedType
    split
    · exact hplain _ (by simp [ContextAttribute.texts])
    · exact plain_of_decide (by decide)
  obtain ⟨text, hvalue, -, hmember⟩ := ContextAttribute.value_denotes OStream.toString isodate2str hn
    fun s hs => hplain s (by simp [ContextAttribute.texts, hs])
  have hmetadata := metadataVectorToJson_denotes OStream.toString hn.metadata
    fun md hmd s hs => hplain s (List.mem_append_right _ (List.mem_flatMap_of_mem hmd hs))
  have hobject : Denotes _ (.object (normalizedMembers w)) := denotes_object
    (.cons (denotesMember (plain_of_decide (by decide)) (denotes_JSON_STR htype))
      (.cons (denotesMember (plain_of_decide (by decide)) hvalue)
        (.cons (denotesMember (plain_of_decide (by decide)) hmetadata) .nil)))
  refine ⟨hplain _ (by simp [ContextAttribute.texts]), _, ?_, hobject⟩
  have hrendered : (if w.type ≠ "" then JSON_VALUE "type" w.type else JSON_VALUE "type" DEFAULT_TYPE) =
      JSON_PROP "type" ++ JSON_STR (renderedType w.type) := by
    unfold renderedType
    split <;> rfl
  unfold ContextAttribute.toJson
  rw [if_neg (by decide), hrendered, hmember]
  simp [commaSeparated, JSON_PROP_toList, JSON_STR_toList]

theorem separated_eq_commaSeparated (texts : List (List Char)) : Separators.separated [','] [] texts = commaSeparated texts := by
  induction texts with
  | nil => rfl
  | cons text texts ih =>
    cases texts with
    | nil => exact List.append_nil text
    | cons text' texts =>
      rw [Separators.separated, ih, List.append_assoc]
      rfl

/-- The identity, as members of the entity. -/
def identityMembers (e : Entity) : List (String × Json) :=
  if e.renderId then [("id", .string e.id), ("type", .string (renderedType e.type))] else []

/-- The attributes that are rendered. -/
def renderedAttributes (e : Entity) : List ContextAttribute := e.attributeVector.filter fun ca => !idOrType ca

theorem denotesMember_type {e : Entity} (h : PlainText e.type) :
    DenotesMember e.typeMember.toList ("type", .string (renderedType e.type)) := by
  have htype : PlainText (renderedType e.type) := by
    unfold renderedType
    split
    · exact h
    · exact plain_of_decide (by decide)
  have htext : e.typeMember = JSON_PROP "type" ++ JSON_STR (renderedType e.type) := by
    unfold Entity.typeMember renderedType
    split <;> rfl
  rw [htext]
  exact denotesMember (plain_of_decide (by decide)) (denotes_JSON_STR htype)

theorem denotesMember_id {e : Entity} (h : PlainText e.id) :
    DenotesMember (JSON_VALUE "id" e.id).toList ("id", .string e.id) :=
  denotesMember (plain_of_decide (by decide)) (denotes_JSON_STR h)

/-- The text of an entity is read as its members, unless a comma stands behind the type. -/
theorem parse_render {e : Entity} (he : e.errorCode.isEmpty = true)
    (hn : ∀ ca ∈ e.attributeVector, (written isodate2str ca).Numberless)
    (hplain : ∀ s ∈ entityTexts isodate2str e, PlainText s)
    (hshown : e.renderId = true → e.attributeVector ≠ [] → renderedAttributes e ≠ []) :
    parse (e.render isodate2str {} "" false) =
      some (.object (identityMembers e ++ (renderedAttributes e).map (attributeMember isodate2str))) := by
  have hfilter : stringSplit "" ',' = [] := by decide
  have hrendered : shown .NGSI_V2_NORMALIZED [] e.attributeVector = renderedAttributes e := rfl
  have hwell : WellSeparated .NGSI_V2_NORMALIZED [] e.attributeVector := by
    refine ⟨fun h => absurd h (by decide), fun _ => ?_, fun h => absurd rfl h⟩
    exact List.prefix_rfl
  have hright : e.RenderedRight isodate2str {} "" false := by
    rw [Entity.renderedRight_iff_of_isEmpty isodate2str {} "" false he, hfilter]
    exact ⟨hwell, fun hid _ hne => hshown hid hne⟩
  obtain ⟨body, hbody, hsequence, -⟩ := hright
  have hbrackets : e.brackets {} = ("\x7b", "\x7d") := by
    unfold Entity.brackets
    rw [if_neg]
    simp [UriParamOptions.renderFormat, valuesOnly]
  have hmembers : List.Forall₂ DenotesMember (e.members isodate2str {} "")
      (identityMembers e ++ (renderedAttributes e).map (attributeMember isodate2str)) := by
    have hpieces : List.Forall₂ DenotesMember (pieces isodate2str .NGSI_V2_NORMALIZED [] e.attributeVector)
        ((renderedAttributes e).map (attributeMember isodate2str)) := by
      unfold pieces
      rw [hrendered, List.forall₂_map_left_iff, List.forall₂_map_right_iff, List.forall₂_same]
      intro ca hca
      have hmem := List.mem_of_mem_filter hca
      exact denotesMember_piece isodate2str (hn ca hmem)
        fun s hs => hplain s (List.mem_append_right _ (List.mem_flatMap_of_mem hmem hs))
    have hid := denotesMember_id (e := e) (hplain _ (by simp [entityTexts]))
    have htype := denotesMember_type (e := e) (hplain _ (by simp [entityTexts]))
    unfold Entity.members identityMembers
    rw [if_pos he, hfilter]
    cases e.renderId with
    | true => exact .cons hid (.cons htype hpieces)
    | false => exact hpieces
  refine parse_of_denotes ?_
  rw [hbody, hbrackets, he]
  rw [separated_eq_commaSeparated] at hsequence
  have hobject := denotes_object hmembers
  rw [← hsequence] at hobject
  simpa using hobject

/-- What is read of an object behind one of its members. -/
def behindMember (fuel : Nat) (m : String × Json) : List Char → Option (List (String × Json) × List Char)
  | ',' :: rest => (JsonText.readMembers fuel rest).map fun read => (m :: read.1, read.2)
  | '}' :: rest => some ([m], rest)
  | _ => none

/-- One member of an object, before whatever follows. -/
theorem readMembers_member {text : List Char} {m : String × Json} (h : DenotesMember text m) (more : List Char) {fuel : Nat}
    (hfuel : text.length ≤ fuel) :
    JsonText.readMembers (fuel + 1) (text ++ more) = behindMember fuel m (skipWhitespace more) := by
  obtain ⟨hname, value, rfl, hv⟩ := h
  have htext : quoted m.1.toList ++ ':' :: value ++ more = '"' :: (m.1.toList ++ '"' :: ':' :: (value ++ more)) := by
    simp [quoted]
  have hlength : value.length < fuel := by
    simp only [quoted, List.length_append, List.length_cons] at hfuel
    omega
  have hquote : ∀ rest, skipWhitespace ('"' :: rest) = '"' :: rest := fun _ => rfl
  have hcolon : ∀ rest, skipWhitespace (':' :: rest) = ':' :: rest := fun _ => rfl
  rw [htext, JsonText.readMembers]
  simp only [hquote, readString_quoted hname, hcolon, hv more fuel hlength, String.ofList_toList]
  rfl

/-- A comma behind the last of two members. -/
theorem parse_trailing {text text' : List Char} {m m' : String × Json} (h : DenotesMember text m)
    (h' : DenotesMember text' m') : parse (String.ofList ('{' :: (text ++ ',' :: (text' ++ [',', '}'])))) = none := by
  have hlast : ∀ fuel, JsonText.readMembers fuel ['}'] = none := by
    intro fuel
    cases fuel with
    | zero => rfl
    | succ fuel => rfl
  have hsecond : ∀ fuel, text'.length ≤ fuel → JsonText.readMembers (fuel + 1) (text' ++ [',', '}']) = none := by
    intro fuel hfuel
    rw [readMembers_member h' _ hfuel]
    show (JsonText.readMembers fuel ['}']).map _ = none
    rw [hlast]
    rfl
  have hfirst : ∀ fuel, text.length + text'.length ≤ fuel →
      JsonText.readMembers (fuel + 2) (text ++ ',' :: (text' ++ [',', '}'])) = none := by
    intro fuel hfuel
    rw [readMembers_member h _ (by omega)]
    show (JsonText.readMembers (fuel + 1) (text' ++ [',', '}'])).map _ = none
    rw [hsecond fuel (by omega)]
    rfl
  have hquote : ∃ more, text ++ ',' :: (text' ++ [',', '}']) = '"' :: more := by
    obtain ⟨-, value, rfl, -⟩ := h
    exact ⟨_, rfl⟩
  obtain ⟨more, hmore⟩ := hquote
  have hread := hfirst (text.length + text'.length + 2) (by omega)
  have hlength : ('{' :: (text ++ ',' :: (text' ++ [',', '}']))).length + 1 = text.length + text'.length + 2 + 2 + 1 := by
    simp only [List.length_cons, List.length_append, List.length_nil]
    omega
  rw [hmore] at hread
  have hvalue : readValue (text.length + text'.length + 2 + 2 + 1) ('{' :: '"' :: more) = none := by
    rw [readValue]
    show (JsonText.readMembers (text.length + text'.length + 2 + 2) ('"' :: more)).map _ = none
    rw [hread]
    rfl
  unfold parse
  rw [String.toList_ofList, hlength, hmore, hvalue]

/-- The attributes are all named as the identity: a comma stands behind the type. -/
theorem parse_render_trailing {e : Entity} (he : e.errorCode.isEmpty = true) (hid : e.renderId = true)
    (hvec : e.attributeVector ≠ []) (hnone : renderedAttributes e = [])
    (hplain : ∀ s ∈ entityTexts isodate2str e, PlainText s) : parse (e.render isodate2str {} "" false) = none := by
  have hfilter : stringSplit "" ',' = [] := by decide
  have hattributes : ContextAttributeVector.toJson isodate2str .NGSI_V2_NORMALIZED [] e.attributeVector = "" :=
    toJson_of_shown_nil isodate2str hnone
  have hbrackets : e.brackets {} = ("\x7b", "\x7d") := by
    unfold Entity.brackets
    rw [if_neg]
    simp [UriParamOptions.renderFormat, valuesOnly]
  have hformat : ({} : UriParamOptions).renderFormat = .NGSI_V2_NORMALIZED := by decide
  have hbody : e.body isodate2str {} "" = JSON_VALUE "id" e.id ++ "," ++ e.typeMember ++ "," := by
    unfold Entity.body
    rw [hformat, hfilter, hattributes]
    simp [valuesOnly, hid, hvec]
  have htext : e.render isodate2str {} "" false = String.ofList
      ('{' :: ((JSON_VALUE "id" e.id).toList ++ ',' :: (e.typeMember.toList ++ [',', '}']))) := by
    rw [Entity.render_of_isEmpty isodate2str {} "" false he, hbrackets, hbody, he, ← String.toList_inj]
    simp
  rw [htext]
  exact parse_trailing (denotesMember_id (hplain _ (by simp [entityTexts])))
    (denotesMember_type (hplain _ (by simp [entityTexts])))

/-! ### The entity that comes back -/

/-- What is read of a rendered attribute is this one. -/
def ReadAs (ca a : ContextAttribute) : Prop :=
  parseContextAttribute getDouble parse8601Time false .v2 ca.name (.object (normalizedMembers (written isodate2str ca))) =
    some (.ok a)

theorem plain_of_attribute {e : Entity} (hplain : ∀ s ∈ entityTexts isodate2str e, PlainText s) {ca : ContextAttribute}
    (hca : ca ∈ e.attributeVector) : (∀ s ∈ (written isodate2str ca).texts, PlainText s) ∧ PlainText ca.name := by
  have htexts : ∀ s ∈ (written isodate2str ca).texts, PlainText s := fun s hs =>
    hplain s (List.mem_append_right _ (List.mem_flatMap_of_mem hca hs))
  refine ⟨htexts, ?_⟩
  have hname := htexts (written isodate2str ca).name (by simp [ContextAttribute.texts])
  rwa [(written_fields isodate2str ca).1] at hname

/-- The loop goes through if and only if each attribute is read. -/
theorem parseEntityMembers_attributes (eidInURL : Bool) {cas : List ContextAttribute}
    (hcas : ∀ ca ∈ cas, idOrType ca = false ∧ PlainText ca.name) (eP : Entity) (typeGiven : Bool) (r : Entity × Bool) :
    parseEntityMembers getDouble parse8601Time eidInURL false eP typeGiven (cas.map (attributeMember isodate2str)) =
        some (.ok r) ↔
      ∃ as, List.Forall₂ (ReadAs getDouble isodate2str parse8601Time) cas as ∧
        r = ({ eP with attributeVector := eP.attributeVector ++ as }, typeGiven) := by
  induction cas generalizing eP with
  | nil =>
    simp only [List.map_nil, parseEntityMembers, Option.some.injEq, Except.ok.injEq, List.forall₂_nil_left_iff]
    constructor
    · rintro rfl
      exact ⟨[], rfl, by rw [List.append_nil]⟩
    · rintro ⟨as, rfl, rfl⟩
      rw [List.append_nil]
  | cons ca cas ih =>
    obtain ⟨⟨hca, hname⟩, hrest⟩ := List.forall_mem_cons.1 hcas
    have hcut : cString ca.name = ca.name := cString_of_plain hname
    obtain ⟨hnotId, hnotType⟩ : ca.name ≠ "id" ∧ ca.name ≠ "type" := by simpa [idOrType] using hca
    rw [List.map_cons, attributeMember, parseEntityMembers.eq_def]
    dsimp only
    rw [hcut, if_neg hnotId, if_neg hnotType]
    have hread : ∀ a, ReadAs getDouble isodate2str parse8601Time ca a ↔ parseContextAttribute getDouble parse8601Time false .v2
        ca.name (.object (normalizedMembers (written isodate2str ca))) = some (.ok a) := fun _ => Iff.rfl
    cases hparse : parseContextAttribute getDouble parse8601Time false .v2 ca.name
        (.object (normalizedMembers (written isodate2str ca))) with
    | none =>
      refine iff_of_false (fun h => by cases h) ?_
      rintro ⟨as, hall, -⟩
      cases hall with
      | cons hfirst _ =>
        rw [hread, hparse] at hfirst
        cases hfirst
    | some result =>
      cases result with
      | error message =>
        refine iff_of_false (fun h => by cases h) ?_
        rintro ⟨as, hall, -⟩
        cases hall with
        | cons hfirst _ =>
          rw [hread, hparse] at hfirst
          cases hfirst
      | ok a =>
        dsimp only
        rw [ih hrest]
        constructor
        · rintro ⟨as, hall, rfl⟩
          refine ⟨a :: as, .cons ((hread a).2 hparse) hall, ?_⟩
          rw [List.append_assoc, List.singleton_append]
        · rintro ⟨as', hall, rfl⟩
          cases hall with
          | @cons _ a' _ as hfirst hall =>
            rw [hread, hparse] at hfirst
            cases hfirst
            refine ⟨as, hall, ?_⟩
            rw [List.append_assoc, List.singleton_append]

theorem exists_forall₂ {α β : Type} {R : α → β → Prop} {l : List α} (h : ∀ a ∈ l, ∃ b, R a b) :
    ∃ l', List.Forall₂ R l l' := by
  induction l with
  | nil => exact ⟨[], .nil⟩
  | cons a l ih =>
    obtain ⟨⟨b, hb⟩, hrest⟩ := List.forall_mem_cons.1 h
    obtain ⟨l', hl'⟩ := ih hrest
    exact ⟨b :: l', .cons hb hl'⟩

/-- The entity that is read of a rendered one. -/
def readEntity (eidInURL : Bool) (e : Entity) (as : List ContextAttribute) : Entity where
  id := if eidInURL then "" else e.id
  type := if eidInURL then DEFAULT_TYPE else renderedType e.type
  attributeVector := as

/-- What is read of the text of an entity. -/
theorem parseEntity_render {e : Entity} (he : e.errorCode.isEmpty = true)
    (hn : ∀ ca ∈ e.attributeVector, (written isodate2str ca).Numberless)
    (hplain : ∀ s ∈ entityTexts isodate2str e, PlainText s) {eidInURL : Bool} (hid : e.renderId = !eidInURL)
    (hshown : e.renderId = true → e.attributeVector ≠ [] → renderedAttributes e ≠ []) (e' : Entity) :
    parseEntity getDouble parse8601Time eidInURL false (e.render isodate2str {} "" false) = some (.ok e') ↔
      (if eidInURL then renderedAttributes e ≠ [] else e.id ≠ "") ∧
        ∃ as, List.Forall₂ (ReadAs getDouble isodate2str parse8601Time) (renderedAttributes e) as ∧
          e' = readEntity eidInURL e as := by
  have hcas : ∀ ca ∈ renderedAttributes e, idOrType ca = false ∧ PlainText ca.name := by
    intro ca hca
    obtain ⟨hmem, hshow⟩ := List.mem_filter.1 hca
    exact ⟨by simpa using hshow, (plain_of_attribute isodate2str hplain hmem).2⟩
  have hloop := parseEntityMembers_attributes getDouble isodate2str parse8601Time eidInURL hcas
  have hlookup : ∀ name, name = "id" ∨ name = "type" →
      ((renderedAttributes e).map (attributeMember isodate2str)).lookup name = none := by
    intro name hname
    rw [List.lookup_eq_none_iff]
    intro m hm
    obtain ⟨ca, hca, rfl⟩ := List.mem_map.1 hm
    obtain ⟨hnotId, hnotType⟩ : ca.name ≠ "id" ∧ ca.name ≠ "type" := by simpa [idOrType] using (hcas ca hca).1
    rcases hname with rfl | rfl
    · simpa [attributeMember] using Ne.symm hnotId
    · simpa [attributeMember] using Ne.symm hnotType
  unfold parseEntity
  rw [parse_render isodate2str he hn hplain hshown]
  cases eidInURL with
  | true =>
    have hnoIdentity : identityMembers e = [] := by
      unfold identityMembers
      rw [hid]
      rfl
    have hnoId : (Json.object ((renderedAttributes e).map (attributeMember isodate2str))).member "id" = none :=
      hlookup "id" (Or.inl rfl)
    have hnoType : (Json.object ((renderedAttributes e).map (attributeMember isodate2str))).member "type" = none :=
      hlookup "type" (Or.inr rfl)
    rw [hnoIdentity, List.nil_append]
    dsimp only
    rw [hnoId, hnoType, if_neg (by simp), if_neg (by simp), if_neg (by simp), Option.map_eq_some_iff]
    constructor
    · rintro ⟨result, hresult, hfinish⟩
      cases result with
      | error message => cases hfinish
      | ok r =>
        obtain ⟨as, hall, rfl⟩ := (hloop _ _ r).1 hresult
        simp only [finishEntity] at hfinish
        split at hfinish
        · cases hfinish
        · rename_i hne
          cases hfinish
          exact ⟨fun h => hne (by rw [h]; rfl), as, hall, rfl⟩
    · rintro ⟨hne, as, hall, rfl⟩
      refine ⟨_, (hloop _ _ _).2 ⟨as, hall, rfl⟩, ?_⟩
      dsimp only [finishEntity]
      rw [if_neg (fun h => hne (List.map_eq_nil_iff.1 h)), if_neg (by simp)]
      rfl
  | false =>
    have hidentity : identityMembers e = [("id", .string e.id), ("type", .string (renderedType e.type))] := by
      unfold identityMembers
      rw [hid]
      rfl
    have hcutId : cString e.id = e.id := cString_of_plain (hplain _ (by simp [entityTexts]))
    have hcutType : cString (renderedType e.type) = renderedType e.type :=
      cString_renderedType (hplain _ (by simp [entityTexts]))
    have hnames : cString "id" = "id" ∧ cString "type" = "type" := by decide
    rw [hidentity, List.cons_append, List.cons_append, List.nil_append]
    dsimp only
    rw [if_neg (by simp [Json.member]), if_neg (by simp), if_neg (by simp), parseEntityMembers, hnames.1, if_pos rfl,
      if_neg (by decide), hcutId]
    dsimp only
    rw [parseEntityMembers, hnames.2, if_neg (by decide), if_pos rfl, hcutType]
    dsimp only
    rw [Option.map_eq_some_iff]
    constructor
    · rintro ⟨result, hresult, hfinish⟩
      cases result with
      | error message => cases hfinish
      | ok r =>
        obtain ⟨as, hall, rfl⟩ := (hloop _ _ r).1 hresult
        simp only [finishEntity] at hfinish
        rw [if_neg (by simp)] at hfinish
        split at hfinish
        · cases hfinish
        · rename_i hne
          cases hfinish
          exact ⟨fun h => hne ⟨trivial, h⟩, as, hall, rfl⟩
    · rintro ⟨hne, as, hall, rfl⟩
      refine ⟨_, (hloop _ _ _).2 ⟨as, hall, rfl⟩, ?_⟩
      dsimp only [finishEntity]
      rw [if_neg (by simp), if_neg (fun h => hne h.2)]
      rfl

end Reread

/-- An entity with a text, a metadata and a date. -/
def roomEntity : Entity where
  id := "E"
  type := "Room"
  attributeVector :=
    [{ name := "color", type := "Text", stringValue := "red",
       metadataVector := [{ name := "side", type := "Text", stringValue := "north" }] },
      { name := "since", type := "date", valueType := .number, numberValue := .fin 17460 }]

end OrionBroker.EntityParser
