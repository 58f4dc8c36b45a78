import OrionBroker.EatCompound
import OrionBroker.ProcessContextElement
import OrionBroker.Scope
import OrionBroker.SubscriptionReport

/-!
# Payloads of version 1 (`jsonParse.cpp`)

A payload is read node by node.  The path of a node is put together of the names on the way to it, where a node without
name gets the singular of the name above it.  The function that treats a path writes to the object that was made last at
a path above, and what it returns is not looked at.  A compound value is recognised by the beginning of its path, and
goes to the attribute whose value was treated last.

The names are the client's.  `payload_objects_iff` says when each write goes to an object that was made for an enclosing
node: no name leads past the path where the object is made, and each compound value is at or below an attribute's value.
-/

namespace OrionBroker.PayloadParser

open Areas (FIWARE_LOCATION FIWARE_LOCATION_DEPRECATED)
open EatCompound (PropertyTree ConnectionInfo eatCompound)

/-! ### The treat functions -/

/-- A node of the payload: where it is in the tree, and its path. -/
structure NodeRef where
  position : List Nat
  path : String
deriving DecidableEq

/-- The pointers of `ParseData` that are written through. -/
inductive Pointer where
  | ceP
  | attributeP
  | contextMetadataP
  | domainMetadataP
  | entityIdP
  | scopeP
  | vertexP
  | notifyConditionP
  | lastContextAttribute
deriving DecidableEq

/-- What the treat functions do.  Where there is no pointer, the request itself is written to. -/
inductive Treat where
  | jsonNullTreat
  /-- An object is made and added to a vector. -/
  | create (pointer : Pointer) (container : Option Pointer) (vector : String)
  /-- A field gets the value of the node. -/
  | set (pointer : Option Pointer) (field : String)
  /-- The value of the node is added to a list. -/
  | add (pointer : Option Pointer) (list : String)
  /-- A field gets a constant. -/
  | mark (pointer : Option Pointer) (field constant : String)
  /-- A field gets the value of the node, which is true or false. -/
  | flag (pointer : Pointer) (field error : String)
  | attributeValue
  | scopeValue
deriving DecidableEq

namespace Treat

/-- The pointer that is written through. -/
def writes : Treat → Option Pointer
  | .jsonNullTreat => none
  | .create _ container _ => container
  | .set pointer _ | .add pointer _ | .mark pointer _ _ => pointer
  | .flag pointer _ _ => some pointer
  | .attributeValue => some .attributeP
  | .scopeValue => some .scopeP

/-- The pointer that gets a new object. -/
def creates : Treat → Option Pointer
  | .create pointer _ _ => some pointer
  | _ => none

end Treat

inductive Datum where
  | text (s : String)
  | object (node : NodeRef)
  | compound (root : CompoundValueNode)

/-- What is written to: the request, or the object of a pointer, which may be NULL. -/
inductive Target where
  | request
  | object (node : Option NodeRef)
deriving DecidableEq

/-- An object is known by the node that it was made for; its fields are what was written to it. -/
structure ParseData where
  pointers : Pointer → Option NodeRef
  written : List (Target × String × Datum)
  errorString : String

namespace ParseData

def init : ParseData := ⟨fun _ => none, [], ""⟩

def target (d : ParseData) : Option Pointer → Target
  | none => .request
  | some pointer => .object (d.pointers pointer)

def write (d : ParseData) (pointer : Option Pointer) (field : String) (datum : Datum) : ParseData :=
  { d with written := d.written ++ [(d.target pointer, field, datum)] }

/-- The text that a field of an object has. -/
def read (d : ParseData) (pointer : Pointer) (field : String) : String :=
  match d.written.reverse.find? fun w => w.1 = d.target (some pointer) ∧ w.2.1 = field with
  | some (_, _, .text s) => s
  | _ => ""

def point (d : ParseData) (pointer : Pointer) (node : Option NodeRef) : ParseData :=
  { d with pointers := Function.update d.pointers pointer node }

end ParseData

/-- A treat function on the node and its value. -/
def Treat.apply (node : NodeRef) (value : String) (d : ParseData) : Treat → ParseData
  | .jsonNullTreat => d
  | .create pointer container vector => (d.write container vector (.object node)).point pointer (some node)
  | .set pointer field | .add pointer field => d.write pointer field (.text value)
  | .mark pointer field constant => d.write pointer field (.text constant)
  | .flag pointer field error =>
    let d := d.write (some pointer) field (.text value)
    if isTrue value || isFalse value then d else { d with errorString := error ++ value ++ "/" }
  | .attributeValue =>
    let d := d.point .lastContextAttribute (d.pointers .attributeP)
    (d.write (some .attributeP) "stringValue" (.text value)).write (some .attributeP) "valueType" (.text "string")
  | .scopeValue =>
    let type := d.read .scopeP "type"
    d.write (some .scopeP) "value"
      (.text (if type = FIWARE_LOCATION ∨ type = FIWARE_LOCATION_DEPRECATED then FIWARE_LOCATION else value))

namespace Upcr

def contextElement : Treat := .create .ceP none "contextElementVector"
def entityIdId : Treat := .set (some .ceP) "entityId.id"
def entityIdType : Treat := .set (some .ceP) "entityId.type"
def entityIdIsPattern : Treat := .set (some .ceP) "entityId.isPattern"
def attributeDomainName : Treat := .set (some .ceP) "attributeDomainName"
def attributeTreat : Treat := .create .attributeP (some .ceP) "contextAttributeVector"
def attributeName : Treat := .set (some .attributeP) "name"
def attributeType : Treat := .set (some .attributeP) "type"
def metadata : Treat := .create .contextMetadataP (some .attributeP) "metadataVector"
def metadataName : Treat := .set (some .contextMetadataP) "name"
def metadataType : Treat := .set (some .contextMetadataP) "type"
def metadataValue : Treat := .set (some .contextMetadataP) "stringValue"
def domainMetadata : Treat := .create .domainMetadataP (some .ceP) "domainMetadataVector"
def domainMetadataName : Treat := .set (some .domainMetadataP) "name"
def domainMetadataType : Treat := .set (some .domainMetadataP) "type"
def domainMetadataValue : Treat := .set (some .domainMetadataP) "stringValue"
def updateAction : Treat := .set none "updateActionType"

end Upcr

namespace Scr

def entityId : Treat := .create .entityIdP none "entityIdVector"
def entityIdId : Treat := .set (some .entityIdP) "id"
def entityIdType : Treat := .set (some .entityIdP) "type"
def entityIdIsPattern : Treat := .set (some .entityIdP) "isPattern"
def attributeTreat : Treat := .add none "attributeList"
def reference : Treat := .set none "reference"
def duration : Treat := .set none "duration"
def restriction : Treat := .add none "restrictions"
def attributeExpression : Treat := .set none "restriction.attributeExpression"
def scope : Treat := .create .scopeP none "restriction.scopeVector"
def scopeType : Treat := .set (some .scopeP) "type"
def circle : Treat := .mark (some .scopeP) "areaType" "CircleType"
def circleCenterLatitude : Treat := .set (some .scopeP) "circle.center.latitude"
def circleCenterLongitude : Treat := .set (some .scopeP) "circle.center.longitude"
def circleRadius : Treat := .set (some .scopeP) "circle.radius"
def circleInverted : Treat := .flag .scopeP "circle.inverted" "bad string for circle/inverted: /"
def polygon : Treat := .mark (some .scopeP) "areaType" "PolygonType"
def polygonInverted : Treat := .flag .scopeP "polygon.inverted" "bad string for polygon/inverted: /"
def polygonVertexList : Treat := .jsonNullTreat
def polygonVertex : Treat := .create .vertexP (some .scopeP) "polygon.vertexList"
def polygonVertexLatitude : Treat := .set (some .vertexP) "latitude"
def polygonVertexLongitude : Treat := .set (some .vertexP) "longitude"
def notifyCondition : Treat := .create .notifyConditionP none "notifyConditionVector"
def notifyConditionRestriction : Treat := .set (some .notifyConditionP) "restriction"
def notifyConditionType : Treat := .set (some .notifyConditionP) "type"
def notifyConditionCondValue : Treat := .add (some .notifyConditionP) "condValueList"
def throttling : Treat := .set none "throttling"

end Scr

/-- A table of paths and functions.  `creator` is the path at which the object of a pointer is made, `value` the one of
the values of attributes; what writes to an object stands below the path at which it is made. -/
structure ParseVector where
  entries : List (String × Treat)
  creator : Pointer → Option String
  value : Option String
  creates_iff : ∀ e ∈ entries, ∀ pointer, e.2.creates = some pointer ↔ creator pointer = some e.1
  writes_below : ∀ e ∈ entries, ∀ pointer ∈ e.2.writes, ∃ c ∈ creator pointer, c ≠ "" ∧ (c ++ "/").toList <+: e.1.toList
  value_iff : ∀ e ∈ entries, e.2 = .attributeValue ↔ value = some e.1
  creator_mem : ∀ pointer, ∀ c ∈ creator pointer, c ∈ entries.map Prod.fst
  value_mem : ∀ p ∈ value, p ∈ entries.map Prod.fst
  creator_last : creator .lastContextAttribute = none

def upcrEntries : List (String × Treat) :=
  [("/contextElements", .jsonNullTreat),
   ("/contextElements/contextElement", Upcr.contextElement),
   ("/contextElements/contextElement/type", Upcr.entityIdType),
   ("/contextElements/contextElement/isPattern", Upcr.entityIdIsPattern),
   ("/contextElements/contextElement/id", Upcr.entityIdId),
   ("/contextElements/contextElement/attributeDomainName", Upcr.attributeDomainName),
   ("/contextElements/contextElement/attributes", .jsonNullTreat),
   ("/contextElements/contextElement/attributes/attribute", Upcr.attributeTreat),
   ("/contextElements/contextElement/attributes/attribute/name", Upcr.attributeName),
   ("/contextElements/contextElement/attributes/attribute/type", Upcr.attributeType),
   ("/contextElements/contextElement/attributes/attribute/value", .attributeValue),
   ("/contextElements/contextElement/attributes/attribute/metadatas", .jsonNullTreat),
   ("/contextElements/contextElement/attributes/attribute/metadatas/metadata", Upcr.metadata),
   ("/contextElements/contextElement/attributes/attribute/metadatas/metadata/name", Upcr.metadataName),
   ("/contextElements/contextElement/attributes/attribute/metadatas/metadata/type", Upcr.metadataType),
   ("/contextElements/contextElement/attributes/attribute/metadatas/metadata/value", Upcr.metadataValue),
   ("/contextElements/contextElement/domainMetadatas", .jsonNullTreat),
   ("/contextElements/contextElement/domainMetadatas/domainMetadata", Upcr.domainMetadata),
   ("/contextElements/contextElement/domainMetadatas/domainMetadata/name", Upcr.domainMetadataName),
   ("/contextElements/contextElement/domainMetadatas/domainMetadata/type", Upcr.domainMetadataType),
   ("/contextElements/contextElement/domainMetadatas/domainMetadata/value", Upcr.domainMetadataValue),
   ("/updateAction", Upcr.updateAction)]

def upcrCreator : Pointer → Option String
  | .ceP => some "/contextElements/contextElement"
  | .attributeP => some "/contextElements/contextElement/attributes/attribute"
  | .contextMetadataP => some "/contextElements/contextElement/attributes/attribute/metadatas/metadata"
  | .domainMetadataP => some "/contextElements/contextElement/domainMetadatas/domainMetadata"
  | _ => none

def jsonUpcrParseVector : ParseVector where
  entries := upcrEntries
  creator := upcrCreator
  value := some "/contextElements/contextElement/attributes/attribute/value"
  creates_iff e he pointer := by
    revert e
    cases pointer <;> decide +kernel
  writes_below := by decide +kernel
  value_iff := by decide +kernel
  creator_mem pointer := by cases pointer <;> decide +kernel
  value_mem := by decide +kernel
  creator_last := rfl

def scrEntries : List (String × Treat) :=
  [("/entities", .jsonNullTreat),
   ("/entities/entity", Scr.entityId),
   ("/entities/entity/id", Scr.entityIdId),
   ("/entities/entity/type", Scr.entityIdType),
   ("/entities/entity/isPattern", Scr.entityIdIsPattern),
   ("/attributes", .jsonNullTreat),
   ("/attributes/attribute", Scr.attributeTreat),
   ("/reference", Scr.reference),
   ("/duration", Scr.duration),
   ("/restriction", Scr.restriction),
   ("/restriction/attributeExpression", Scr.attributeExpression),
   ("/restriction/scopes", .jsonNullTreat),
   ("/restriction/scopes/scope", Scr.scope),
   ("/restriction/scopes/scope/type", Scr.scopeType),
   ("/restriction/scopes/scope/value", .scopeValue),
   ("/restriction/scopes/scope/value/circle", Scr.circle),
   ("/restriction/scopes/scope/value/circle/centerLatitude", Scr.circleCenterLatitude),
   ("/restriction/scopes/scope/value/circle/centerLongitude", Scr.circleCenterLongitude),
   ("/restriction/scopes/scope/value/circle/radius", Scr.circleRadius),
   ("/restriction/scopes/scope/value/circle/inverted", Scr.circleInverted),
   ("/restriction/scopes/scope/value/polygon", Scr.polygon),
   ("/restriction/scopes/scope/value/polygon/vertices", Scr.polygonVertexList),
   ("/restriction/scopes/scope/value/polygon/vertices/vertice", Scr.polygonVertex),
   ("/restriction/scopes/scope/value/polygon/vertices/vertice/latitude", Scr.polygonVertexLatitude),
   ("/restriction/scopes/scope/value/polygon/vertices/vertice/longitude", Scr.polygonVertexLongitude),
   ("/restriction/scopes/scope/value/polygon/inverted", Scr.polygonInverted),
   ("/notifyConditions", .jsonNullTreat),
   ("/notifyConditions/notifyCondition", Scr.notifyCondition),
   ("/notifyConditions/notifyCondition/type", Scr.notifyConditionType),
   ("/notifyConditions/notifyCondition/condValues", .jsonNullTreat),
   ("/notifyConditions/notifyCondition/condValues/condValue", Scr.notifyConditionCondValue),
   ("/notifyConditions/notifyCondition/restriction", Scr.notifyConditionRestriction),
   ("/throttling", Scr.throttling)]

def scrCreator : Pointer → Option String
  | .entityIdP => some "/entities/entity"
  | .scopeP => some "/restriction/scopes/scope"
  | .vertexP => some "/restriction/scopes/scope/value/polygon/vertices/vertice"
  | .notifyConditionP => some "/notifyConditions/notifyCondition"
  | _ => none

def jsonScrParseVector : ParseVector where
  entries := scrEntries
  creator := scrCreator
  value := none
  creates_iff e he pointer := by
    revert e
    cases pointer <;> decide +kernel
  writes_below := by decide +kernel
  value_iff := by decide +kernel
  creator_mem pointer := by cases pointer <;> decide +kernel
  value_mem := by decide +kernel
  creator_last := rfl

inductive RequestType where
  | updateContext
  | subscribeContext
deriving DecidableEq

def RequestType.parseVector : RequestType → ParseVector
  | .updateContext => jsonUpcrParseVector
  | .subscribeContext => jsonScrParseVector

/-! ### The parser -/

def compoundRootV : List String :=
  ["/contextElements/contextElement/attributes/attribute/value", "/attributes/attribute/value",
   "/contextResponses/contextResponse/contextElement/attributes/attribute/value", "/value"]

def isCompoundPath (path : String) : Bool := compoundRootV.any fun root => root.toList.isPrefixOf path.toList

def isScopeValue (path : String) : Bool := "/scopes/scope/value".toList.isSuffixOf path.toList

/-- The last name of a path without its last letter, where `ie` becomes `y`. -/
def getArrayElementName (arrayName : String) : String :=
  let elementName := (((arrayName.toList.splitOn '/').getLast?).getD []).dropLast
  if 2 < elementName.length ∧ ['i', 'e'] <:+ elementName then
    String.ofList (elementName.take (elementName.length - 2) ++ ['y'])
  else String.ofList elementName

/-- The functions that are called: for a node below others, the innermost first. -/
inductive Call where
  | treat (node : NodeRef) (above : List NodeRef) (function : Treat) (value : String)
  | compoundValueEnd (node : NodeRef) (above : List NodeRef) (root : CompoundValueNode)

/-- What is returned, or the exception that is thrown. -/
inductive Outcome where
  | ok
  | error (answer : String)
  | exception (what : String)

/-- The node is treated if its value has no forbidden character and its path is in the table. -/
def treat (v : ParseVector) (ciP : ConnectionInfo) (node : NodeRef) (above : List NodeRef) (value : String) :
    Bool × ConnectionInfo × List Call :=
  if !isScopeValue node.path && forbiddenChars (cString value) [] then
    (false, ⟨400, "Illegal value for JSON field"⟩, [])
  else
    match v.entries.find? fun e => e.1 = node.path with
    | some e => (true, ciP, [.treat node above e.2 value])
    | none => (false, ciP, [])

def parentPath (above : List NodeRef) : String := (above.head?.map NodeRef.path).getD ""

/-- The check at the end of a compound value. -/
def ConnectionInfo.finished (ciP : ConnectionInfo) (root : CompoundValueNode) : ConnectionInfo :=
  if root.check ≠ "OK" then ⟨400, "compound value error: " ++ root.check⟩ else ciP

mutual

/-- A node, with what is returned and the functions that are called.  `inCompoundValue` is never set here. -/
def parseNode (v : ParseVector) (above : List NodeRef) (position : List Nat) (key : String) :
    PropertyTree → ConnectionInfo → Outcome × ConnectionInfo × List Call
  | .node data children, ciP =>
    let nodeName := cString key
    let arrayElementName := getArrayElementName (parentPath above)
    if nodeName ≠ "" ∧ nodeName = arrayElementName then
      (.exception ("The object '" ++ parentPath above ++ "' may not have a child named '" ++ nodeName ++ "'"), ciP, [])
    else
      let node : NodeRef := ⟨position, parentPath above ++ "/" ++ if nodeName = "" then arrayElementName else nodeName⟩
      let (treated, ciP, calls) := treat v ciP node above data
      if isCompoundPath node.path && data = "" && !children.isEmpty then
        let (ciP, containerP) := eatCompound ciP none key (.node data children)
        let ciP := ConnectionInfo.finished ciP containerP.toNode
        (if ciP.httpStatusCode ≠ 200 then .error ciP.answer else .ok, ciP,
          calls ++ [.compoundValueEnd node above containerP.toNode])
      else if !treated then
        let answer := if ciP.answer = "" then "JSON Parse Error: unknown field: " ++ node.path else ciP.answer
        (.error answer, ⟨400, answer⟩, calls)
      else
        let (outcome, ciP, calls') := parseChildren v (node :: above) position 0 children ciP
        (outcome, ciP, calls ++ calls')

/-- The children from the one with the number `ix` on. -/
def parseChildren (v : ParseVector) (above : List NodeRef) (position : List Nat) (ix : Nat) :
    List (String × PropertyTree) → ConnectionInfo → Outcome × ConnectionInfo × List Call
  | [], ciP => (.ok, ciP, [])
  | (key, tree) :: children, ciP =>
    match parseNode v above (position ++ [ix]) key tree ciP with
    | (.ok, ciP, calls) =>
      let (outcome, ciP, calls') := parseChildren v above position (ix + 1) children ciP
      (outcome, ciP, calls ++ calls')
    | stopped => stopped

end

/-- The functions that are called for a payload. -/
def jsonParse (v : ParseVector) (payload : List (String × PropertyTree)) : Outcome × ConnectionInfo × List Call :=
  parseChildren v [] [] 0 payload ⟨200, ""⟩

/-- What a call does; the compound value is given to the attribute whose value was treated last. -/
def Call.run (d : ParseData) : Call → ParseData
  | .treat node _ function value => function.apply node value d
  | .compoundValueEnd _ _ root => d.write (some .lastContextAttribute) "compoundValueP" (.compound root)

/-! ### What is promised -/

/-- A treat function writes to an object that was made for an enclosing node, and a compound value goes to the attribute
whose value the node is or is in. -/
def Call.Proper (v : ParseVector) (d : ParseData) : Call → Prop
  | .treat _ above function _ => ∀ pointer ∈ function.writes, ∃ object ∈ above, d.pointers pointer = some object
  | .compoundValueEnd node above _ =>
    ∃ inner value outer, node :: above = inner ++ value :: outer ∧ v.value = some value.path ∧
      ∃ object ∈ outer, d.pointers .lastContextAttribute = some object

/-- All calls are proper when they are made. -/
def AllProper (v : ParseVector) : ParseData → List Call → Prop
  | _, [] => True
  | d, call :: calls => call.Proper v d ∧ AllProper v (call.run d) calls

def ObjectsExist (v : ParseVector) (payload : List (String × PropertyTree)) : Prop :=
  AllProper v ParseData.init (jsonParse v payload).2.2

/-- The length of a path. -/
abbrev len (path : String) : Nat := path.toList.length

/-- On the way to the first node, a name leads past the path: it begins above it and ends below it. -/
def skips (path : String) : List NodeRef → Bool
  | [] => false
  | node :: above => decide (len (parentPath above) < len path ∧ len path < len node.path) || skips path above

/-- No name leads past the path where the object is made; a compound value is or is in the value of an attribute, to
which no name leads past the attribute. -/
def Call.OnPath (v : ParseVector) : Call → Prop
  | .treat node above function _ => ∀ pointer ∈ function.writes, ∀ c ∈ v.creator pointer, skips c (node :: above) = false
  | .compoundValueEnd node above _ =>
    ∃ inner value outer, node :: above = inner ++ value :: outer ∧ v.value = some value.path ∧
      ∀ c ∈ v.creator .attributeP, skips c (value :: outer) = false

/-! ### Paths -/

/-- Each path is the one above with a name. -/
def Chained : List NodeRef → Prop
  | [] => True
  | node :: above => (∃ name : String, node.path = parentPath above ++ "/" ++ name) ∧ Chained above

theorem parentPath_lt {node : NodeRef} {above : List NodeRef} (h : Chained (node :: above)) :
    (parentPath above).toList <+: node.path.toList ∧ len (parentPath above) < len node.path := by
  obtain ⟨⟨name, hname⟩, -⟩ := h
  rw [len, len, hname, String.toList_append, String.toList_append, List.append_assoc]
  refine ⟨List.prefix_append _ _, ?_⟩
  rw [List.length_append]
  have hpos : 0 < ("/".toList ++ name.toList).length := by simp
  omega

/-- The paths above are shorter, and the path begins with them. -/
theorem above_lt {node : NodeRef} {above : List NodeRef} (h : Chained (node :: above)) :
    ∀ a ∈ above, a.path.toList <+: node.path.toList ∧ len a.path < len node.path := by
  induction above generalizing node with
  | nil => simp
  | cons a above ih =>
    have hparent : a.path.toList <+: node.path.toList ∧ len a.path < len node.path := parentPath_lt h
    intro b hb
    rcases List.mem_cons.1 hb with rfl | hb
    · exact hparent
    · obtain ⟨hbegins, hlt⟩ := ih h.2 b hb
      exact ⟨hbegins.trans hparent.1, hlt.trans hparent.2⟩

theorem skips_eq_false {path : String} {chain : List NodeRef} (h : ∀ node ∈ chain, len node.path ≤ len path) :
    skips path chain = false := by
  induction chain with
  | nil => rfl
  | cons node above ih =>
    have hnode := h node List.mem_cons_self
    rw [skips, ih fun a ha => h a (List.mem_cons_of_mem node ha), Bool.or_false, decide_eq_false_iff_not]
    omega

/-- A path at which the path of a node begins is that of an enclosing node, unless a name leads past it. -/
theorem skips_iff {c : String} {node : NodeRef} {above : List NodeRef} (h : Chained (node :: above)) (hc : c ≠ "")
    (hbegins : c.toList <+: node.path.toList) (hlt : len c < len node.path) :
    skips c (node :: above) = false ↔ ∃ a ∈ above, a.path = c := by
  induction above generalizing node with
  | nil =>
    have hpos : 0 < len c := by
      rw [List.length_pos_iff]
      exact fun hnil => hc (String.toList_inj.1 hnil)
    have hzero : len (parentPath []) = 0 := rfl
    refine iff_of_false ?_ (by simp)
    rw [skips, hzero, decide_eq_true ⟨hpos, hlt⟩]
    simp
  | cons a above ih =>
    have hparent : parentPath (a :: above) = a.path := rfl
    obtain ⟨habegins, halt⟩ := above_lt h a List.mem_cons_self
    have habove := above_lt h.2
    rw [skips, hparent]
    rcases lt_trichotomy (len a.path) (len c) with hless | heq | hmore
    · refine iff_of_false ?_ ?_
      · rw [decide_eq_true ⟨hless, hlt⟩]
        simp
      · rintro ⟨b, hb, rfl⟩
        rcases List.mem_cons.1 hb with rfl | hb
        · omega
        · have := (habove b hb).2
          omega
    · have hsame : a.path = c := String.toList_inj.1 ((List.prefix_of_prefix_length_le habegins hbegins heq.le).eq_of_length heq)
      refine iff_of_true ?_ ⟨a, List.mem_cons_self, hsame⟩
      rw [decide_eq_false (by omega), Bool.false_or]
      refine skips_eq_false fun b hb => ?_
      rcases List.mem_cons.1 hb with rfl | hb
      · exact heq.le
      · have := (habove b hb).2
        omega
    · have hcbegins : c.toList <+: a.path.toList := List.prefix_of_prefix_length_le hbegins habegins hmore.le
      rw [decide_eq_false (by omega), Bool.false_or, ih h.2 hcbegins hmore]
      constructor
      · rintro ⟨b, hb, hpath⟩
        exact ⟨b, List.mem_cons_of_mem a hb, hpath⟩
      · rintro ⟨b, hb, hpath⟩
        rcases List.mem_cons.1 hb with rfl | hb
        · rw [hpath] at hmore
          omega
        · exact ⟨b, hb, hpath⟩

/-! ### The pointers while a payload is parsed -/

/-- The pointers below some nodes.  A pointer whose object is made at the path of one of them points to its object; the
last attribute is the one of the enclosing value. -/
structure Tracks (v : ParseVector) (above : List NodeRef) (d : ParseData) : Prop where
  path_eq : ∀ pointer object c, v.creator pointer = some c → d.pointers pointer = some object → object.path = c
  current : ∀ pointer, ∀ object ∈ above, v.creator pointer = some object.path → d.pointers pointer = some object
  last_path : ∀ object, d.pointers .lastContextAttribute = some object → v.creator .attributeP = some object.path
  last_current : ∀ inner value outer, above = inner ++ value :: outer → v.value = some value.path →
    ∀ object ∈ outer, v.creator .attributeP = some object.path → d.pointers .lastContextAttribute = some object

theorem tracks_init (v : ParseVector) : Tracks v [] ParseData.init where
  path_eq := by
    intro pointer object c _ h
    cases h
  current := by simp
  last_path := by
    intro object h
    cases h
  last_current := by simp

/-- What holds below a node and others holds below the others. -/
theorem Tracks.of_cons {v : ParseVector} {node : NodeRef} {above : List NodeRef} {d : ParseData}
    (h : Tracks v (node :: above) d) : Tracks v above d where
  path_eq := h.path_eq
  current pointer object hobject := h.current pointer object (List.mem_cons_of_mem node hobject)
  last_path := h.last_path
  last_current inner value outer habove := h.last_current (node :: inner) value outer (by rw [habove]; rfl)

@[simp] theorem pointers_write (d : ParseData) (pointer : Option Pointer) (field : String) (datum : Datum) :
    (d.write pointer field datum).pointers = d.pointers := rfl

/-- What the functions do to the pointers. -/
theorem pointers_apply (function : Treat) (node : NodeRef) (value : String) (d : ParseData) (pointer : Pointer) :
    (function.apply node value d).pointers pointer =
      if function.creates = some pointer then some node
      else if function = .attributeValue ∧ pointer = .lastContextAttribute then d.pointers .attributeP
      else d.pointers pointer := by
  cases function with
  | create p container vector =>
    by_cases hp : pointer = p
    · subst hp
      simp [Treat.apply, ParseData.point, Treat.creates]
    · simp [Treat.apply, ParseData.point, Treat.creates, hp, Ne.symm hp]
  | attributeValue =>
    by_cases hp : pointer = .lastContextAttribute
    · subst hp
      simp [Treat.apply, ParseData.point, Treat.creates]
    · simp [Treat.apply, ParseData.point, Treat.creates, hp]
  | flag p field error =>
    simp only [Treat.apply]
    split <;> simp [Treat.creates]
  | _ => simp [Treat.apply, Treat.creates]

theorem Tracks.treated {v : ParseVector} {node : NodeRef} {above : List NodeRef} {d : ParseData} (h : Tracks v above d)
    (hchain : Chained (node :: above)) {e : String × Treat} (he : e ∈ v.entries) (hpath : e.1 = node.path)
    (value : String) : Tracks v (node :: above) (e.2.apply node value d) := by
  have hcreates : ∀ pointer, e.2.creates = some pointer ↔ v.creator pointer = some node.path := by
    intro pointer
    rw [v.creates_iff e he pointer, hpath]
  have hlast : e.2.creates ≠ some .lastContextAttribute := by
    rw [ne_eq, hcreates, v.creator_last]
    simp
  have habove := above_lt hchain
  refine ⟨?_, ?_, ?_, ?_⟩
  · intro pointer object c hcreator hobject
    rw [pointers_apply] at hobject
    split at hobject
    · rename_i hnew
      cases hobject
      have hnode := (hcreates pointer).1 hnew
      rw [hcreator] at hnode
      exact (Option.some.inj hnode).symm
    · split at hobject
      · rename_i hvalue
        rw [hvalue.2, v.creator_last] at hcreator
        cases hcreator
      · exact h.path_eq pointer object c hcreator hobject
  · intro pointer object hobject hcreator
    rw [pointers_apply]
    have hnotLast : ¬ (e.2 = .attributeValue ∧ pointer = .lastContextAttribute) := by
      rintro ⟨-, rfl⟩
      rw [v.creator_last] at hcreator
      cases hcreator
    rcases List.mem_cons.1 hobject with rfl | hobject
    · rw [if_pos ((hcreates pointer).2 hcreator)]
    · have hnotNew : e.2.creates ≠ some pointer := by
        rw [ne_eq, hcreates, hcreator]
        intro hsame
        have hlt := (habove object hobject).2
        rw [Option.some.inj hsame] at hlt
        exact lt_irrefl _ hlt
      rw [if_neg hnotNew, if_neg hnotLast]
      exact h.current pointer object hobject hcreator
  · intro object hobject
    rw [pointers_apply, if_neg hlast] at hobject
    split at hobject
    · rename_i hvalue
      obtain ⟨c, hc, -, -⟩ := v.writes_below e he .attributeP (by rw [hvalue.1]; rfl)
      rw [h.path_eq .attributeP object c hc hobject]
      exact hc
    · exact h.last_path object hobject
  · intro inner value' outer hsplit hvalue object hobject hcreator
    rw [pointers_apply, if_neg hlast]
    cases inner with
    | nil =>
      obtain ⟨rfl, rfl⟩ := List.cons.inj hsplit
      have hfunction : e.2 = .attributeValue := (v.value_iff e he).2 (hpath ▸ hvalue)
      rw [if_pos ⟨hfunction, rfl⟩]
      exact h.current .attributeP object hobject hcreator
    | cons first inner =>
      obtain ⟨rfl, hrest⟩ := List.cons.inj hsplit
      have hnotValue : ¬ (e.2 = .attributeValue ∧ Pointer.lastContextAttribute = .lastContextAttribute) := by
        rintro ⟨hfunction, -⟩
        have hnode := (v.value_iff e he).1 hfunction
        rw [hpath, hvalue] at hnode
        have hlt := (habove value' (by rw [hrest]; simp)).2
        rw [Option.some.inj hnode] at hlt
        exact lt_irrefl _ hlt
      rw [if_neg hnotValue]
      exact h.last_current inner value' outer hrest hvalue object hobject hcreator

/-- At a path that is not in the table no object is made. -/
theorem Tracks.untreated {v : ParseVector} {node : NodeRef} {above : List NodeRef} {d : ParseData} (h : Tracks v above d)
    (hno : node.path ∉ v.entries.map Prod.fst) : Tracks v (node :: above) d := by
  refine ⟨h.path_eq, ?_, h.last_path, ?_⟩
  · intro pointer object hobject hcreator
    rcases List.mem_cons.1 hobject with rfl | hobject
    · exact absurd (v.creator_mem pointer _ hcreator) hno
    · exact h.current pointer object hobject hcreator
  · intro inner value outer hsplit hvalue object hobject hcreator
    cases inner with
    | nil =>
      obtain ⟨rfl, rfl⟩ := List.cons.inj hsplit
      exact absurd (v.value_mem _ hvalue) hno
    | cons first inner =>
      obtain ⟨rfl, hrest⟩ := List.cons.inj hsplit
      exact h.last_current inner value outer hrest hvalue object hobject hcreator

/-- The path of an entry begins with the one at which the object that it writes to is made. -/
theorem skips_creator_iff {v : ParseVector} {node : NodeRef} {above : List NodeRef} (hchain : Chained (node :: above))
    {e : String × Treat} (he : e ∈ v.entries) (hpath : e.1 = node.path) {pointer : Pointer}
    (hwrites : pointer ∈ e.2.writes) :
    (∀ c ∈ v.creator pointer, skips c (node :: above) = false) ↔ ∃ a ∈ above, v.creator pointer = some a.path := by
  obtain ⟨c, hc, hne, hbelow⟩ := v.writes_below e he pointer hwrites
  rw [hpath, String.toList_append] at hbelow
  have hlt : c.toList.length < node.path.toList.length := by
    have hle := hbelow.length_le
    rw [List.length_append] at hle
    have hone : ("/".toList).length = 1 := rfl
    omega
  have hskips := skips_iff hchain hne ((List.prefix_append _ _).trans hbelow) hlt
  rw [hc]
  constructor
  · intro h
    obtain ⟨a, ha, hpath⟩ := hskips.1 (h c rfl)
    exact ⟨a, ha, congrArg some hpath.symm⟩
  · rintro ⟨a, ha, hcreator⟩ c' hc'
    cases hc'
    exact hskips.2 ⟨a, ha, (Option.some.inj hcreator).symm⟩

/-- A treat function finds its object if and only if no name leads past the path where it is made. -/
theorem treat_proper_iff {v : ParseVector} {node : NodeRef} {above : List NodeRef} {d : ParseData} (h : Tracks v above d)
    (hchain : Chained (node :: above)) {e : String × Treat} (he : e ∈ v.entries) (hpath : e.1 = node.path)
    (value : String) : (Call.treat node above e.2 value).Proper v d ↔ (Call.treat node above e.2 value).OnPath v := by
  refine forall₂_congr fun pointer hwrites => ?_
  rw [skips_creator_iff hchain he hpath hwrites]
  refine exists_congr fun object => and_congr_right fun hobject => ?_
  obtain ⟨c, hc, -, -⟩ := v.writes_below e he pointer hwrites
  constructor
  · intro hpointer
    rw [h.path_eq pointer object c hc hpointer]
    exact hc
  · exact h.current pointer object hobject

theorem Chained.of_append {inner chain : List NodeRef} (h : Chained (inner ++ chain)) : Chained chain := by
  induction inner with
  | nil => exact h
  | cons node inner ih => exact ih h.2

/-- The end of a compound value, in or at the value of an attribute. -/
theorem end_proper_iff {v : ParseVector} {node : NodeRef} {above : List NodeRef} {d : ParseData}
    (h : Tracks v (node :: above) d) (hchain : Chained (node :: above)) (root : CompoundValueNode) :
    (Call.compoundValueEnd node above root).Proper v d ↔ (Call.compoundValueEnd node above root).OnPath v := by
  refine exists_congr fun inner => exists_congr fun value => exists_congr fun outer =>
    and_congr_right fun hsplit => and_congr_right fun hvalue => ?_
  obtain ⟨e, he, hpath⟩ := List.mem_map.1 (v.value_mem _ hvalue)
  have hfunction : e.2 = .attributeValue := (v.value_iff e he).2 (hpath ▸ hvalue)
  have hbelow : Chained (value :: outer) := (hsplit ▸ hchain).of_append
  rw [skips_creator_iff hbelow he hpath (by rw [hfunction]; rfl)]
  refine exists_congr fun object => and_congr_right fun hobject => ⟨h.last_path object, fun hcreator => ?_⟩
  exact h.last_current inner value outer hsplit hvalue object hobject hcreator

theorem allProper_append (v : ParseVector) (d : ParseData) (calls calls' : List Call) :
    AllProper v d (calls ++ calls') ↔ AllProper v d calls ∧ AllProper v (calls.foldl Call.run d) calls' := by
  induction calls generalizing d with
  | nil => simp [AllProper]
  | cons call calls ih =>
    rw [List.cons_append, AllProper, AllProper, ih, List.foldl_cons, and_assoc]

/-! ### The calls of a payload -/

/-- The calls are proper if and only if no name leads past the objects, and the pointers are known after them. -/
structure Exact (v : ParseVector) (above : List NodeRef) (d : ParseData) (calls : List Call) : Prop where
  proper_iff : AllProper v d calls ↔ ∀ call ∈ calls, call.OnPath v
  tracks : Tracks v above (calls.foldl Call.run d)

theorem Exact.nil {v : ParseVector} {above : List NodeRef} {d : ParseData} (h : Tracks v above d) : Exact v above d [] :=
  ⟨by simp [AllProper], h⟩

theorem Exact.append {v : ParseVector} {above above' : List NodeRef} {d : ParseData} {calls calls' : List Call}
    (h : Exact v above d calls) (h' : Exact v above' (calls.foldl Call.run d) calls') :
    Exact v above' d (calls ++ calls') where
  proper_iff := by
    rw [allProper_append, h.proper_iff, h'.proper_iff]
    simp only [List.mem_append, or_imp, forall_and]
  tracks := by
    rw [List.foldl_append]
    exact h'.tracks

theorem Exact.of_cons {v : ParseVector} {node : NodeRef} {above : List NodeRef} {d : ParseData} {calls : List Call}
    (h : Exact v (node :: above) d calls) : Exact v above d calls :=
  ⟨h.proper_iff, h.tracks.of_cons⟩

/-- A single call. -/
theorem Exact.single {v : ParseVector} {above : List NodeRef} {d : ParseData} {call : Call}
    (hproper : call.Proper v d ↔ call.OnPath v) (h : Tracks v above (call.run d)) : Exact v above d [call] :=
  ⟨by simp [AllProper, hproper], h⟩

/-- A node that is treated, or that has no value, is known among the enclosing ones from then on. -/
theorem treat_exact {v : ParseVector} {node : NodeRef} {above : List NodeRef} {d : ParseData} (h : Tracks v above d)
    (hchain : Chained (node :: above)) (ciP : ConnectionInfo) (value : String) :
    Exact v above d (treat v ciP node above value).2.2 ∧
      ((treat v ciP node above value).1 = true ∨ value = "" → Exact v (node :: above) d (treat v ciP node above value).2.2) := by
  have hbelow : (treat v ciP node above value).1 = true ∨ value = "" →
      Exact v (node :: above) d (treat v ciP node above value).2.2 := by
    intro htreated
    rw [treat] at htreated ⊢
    split
    · rename_i hforbidden
      rw [if_pos hforbidden] at htreated
      rcases htreated with htreated | rfl
      · cases htreated
      · have hempty : forbiddenChars (cString "") [] = false := by decide +kernel
        rw [hempty, Bool.and_false] at hforbidden
        cases hforbidden
    · split
      · rename_i e hfind
        have he := List.mem_of_find?_eq_some hfind
        have hfound := List.find?_some hfind
        have hpath : e.1 = node.path := of_decide_eq_true hfound
        exact Exact.single (treat_proper_iff h hchain he hpath value) (h.treated hchain he hpath value)
      · rename_i hfind
        refine Exact.nil (h.untreated fun hmem => ?_)
        obtain ⟨e, he, hpath⟩ := List.mem_map.1 hmem
        exact absurd (decide_eq_true hpath) (List.find?_eq_none.1 hfind e he)
  refine ⟨?_, hbelow⟩
  by_cases htreated : (treat v ciP node above value).1 = true
  · exact (hbelow (Or.inl htreated)).of_cons
  · have hcalls : (treat v ciP node above value).2.2 = [] := by
      rw [treat] at htreated ⊢
      split
      · rfl
      · rename_i hallowed
        rw [if_neg hallowed] at htreated
        split
        · rename_i e hfind
          simp [hfind] at htreated
        · rfl
    rw [hcalls]
    exact Exact.nil h

mutual

/-- The calls for a node, by induction on the tree. -/
theorem parseNode_exact {v : ParseVector} {above : List NodeRef} (hchain : Chained above) (position : List Nat)
    (key : String) (tree : PropertyTree) (ciP : ConnectionInfo) {d : ParseData} (h : Tracks v above d) :
    Exact v above d (parseNode v above position key tree ciP).2.2 := by
  obtain ⟨data, children⟩ := tree
  rw [parseNode]
  split
  · exact Exact.nil h
  · generalize hpath : parentPath above ++ "/" ++
      (if cString key = "" then getArrayElementName (parentPath above) else cString key) = path
    have hnode : Chained (⟨position, path⟩ :: above) := ⟨⟨_, hpath.symm⟩, hchain⟩
    obtain ⟨htreat, hbelow⟩ := treat_exact h hnode ciP data
    simp only
    split
    · rename_i hcompound
      have hdata : data = "" := by
        simp only [Bool.and_eq_true, decide_eq_true_eq] at hcompound
        exact hcompound.1.2
      have htracks := hbelow (Or.inr hdata)
      -- the end of the compound value leaves the pointers as they are
      exact htreat.append (Exact.single (end_proper_iff htracks.tracks hnode _) ⟨htreat.tracks.1, htreat.tracks.2,
        htreat.tracks.3, htreat.tracks.4⟩)
    · split
      · exact htreat
      · rename_i htreated
        have htracks := hbelow (Or.inl (by simpa using htreated))
        exact htracks.append (parseChildren_exact hnode position 0 children _ htracks.tracks) |>.of_cons

theorem parseChildren_exact {v : ParseVector} {above : List NodeRef} (hchain : Chained above) (position : List Nat)
    (ix : Nat) (children : List (String × PropertyTree)) (ciP : ConnectionInfo) {d : ParseData}
    (h : Tracks v above d) : Exact v above d (parseChildren v above position ix children ciP).2.2 := by
  cases children with
  | nil =>
    rw [parseChildren]
    exact Exact.nil h
  | cons child children =>
    obtain ⟨key, tree⟩ := child
    have hfirst := parseNode_exact hchain (position ++ [ix]) key tree ciP h
    rw [parseChildren]
    split
    · rename_i ciP' calls hparsed
      rw [hparsed] at hfirst
      exact hfirst.append (parseChildren_exact hchain position (ix + 1) children ciP' hfirst.tracks)
    · exact hfirst

end

/-- Each write of a payload goes to an object that was made for an enclosing node if and only if no name leads past the
path where the object is made, and each compound value is or is in the value of an attribute. -/
theorem payload_objects_iff (request : RequestType) (payload : List (String × PropertyTree)) :
    ObjectsExist request.parseVector payload ↔
      ∀ call ∈ (jsonParse request.parseVector payload).2.2, call.OnPath request.parseVector :=
  (parseChildren_exact (show Chained [] from trivial) [] 0 payload ⟨200, ""⟩ (tracks_init request.parseVector)).proper_iff

/-- An attribute with an object under a name that only begins like `value`, and no attribute before it. -/
def valuesPayload : List (String × PropertyTree) :=
  [("contextElements", .node "" [("", .node "" [("attributes", .node "" [("", .node ""
    [("name", .node "A" []), ("values", .node "" [("a", .node "b" [])])])])])])]

/-- The compound value is written through the last attribute, which is NULL. -/
theorem values_without_attribute : ¬ ObjectsExist RequestType.updateContext.parseVector valuesPayload := by
  have hend : ((jsonParse RequestType.updateContext.parseVector valuesPayload).2.2.any fun call =>
      match call with
      | .compoundValueEnd node above _ => !(node :: above).any fun n => RequestType.updateContext.parseVector.value = some n.path
      | _ => false) = true := by
    decide +kernel
  intro h
  obtain ⟨call, hcall, hno⟩ := List.any_eq_true.1 hend
  have hpath := (parseChildren_exact (show Chained [] from trivial) [] 0 valuesPayload ⟨200, ""⟩
    (tracks_init RequestType.updateContext.parseVector)).proper_iff.1 h call hcall
  cases call with
  | treat => cases hno
  | compoundValueEnd node above root =>
    obtain ⟨inner, value, outer, hsplit, hvalue, -⟩ := hpath
    simp [hsplit, hvalue] at hno

end OrionBroker.PayloadParser
