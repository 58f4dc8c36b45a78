import OrionBroker.ServicePath

/-!
# The service of a request (`RestService.cpp`, `contextBroker.cpp`)

A request is dispatched by its method and the components of its URL.  The services are tried in the order of a table;
an entry matches if its components are those of the URL, up to wildcards and case.  The last entry of the table is for
any number of components: it lists six wildcards, the other four places of its array are empty, and the loop goes on for
as many components as the URL has.  `dispatched_iff` says for which requests the service is found as the table says.
-/

namespace OrionBroker.RestServices

/-- The functions that treat a request. -/
inductive RestTreat where
  | entryPointsTreat | badVerbGetOnly | getEntities | postEntities | badVerbGetPostOnly | getEntity | deleteEntity
  | badVerbGetDeleteOnly | postEntity | putEntity | patchEntity | badVerbAllNotDelete | getEntityAttributeValue
  | putEntityAttributeValue | badVerbGetPutOnly | getEntityAttribute | putEntityAttribute | badVerbGetPutDeleteOnly
  | getEntityType | getEntityAllTypes | getAllSubscriptions | postSubscriptions | getSubscription
  | deleteSubscription | patchSubscription | badVerbGetDeletePatchOnly | postBatchQuery | badVerbPostOnly
  | postBatchUpdate | postRegisterContext | postDiscoverContextAvailability | postSubscribeContextAvailability
  | postUnsubscribeContextAvailability | postUpdateContextAvailabilitySubscription | postNotifyContextAvailability
  | postUpdateContext | postQueryContext | postSubscribeContext | postUpdateContextSubscription
  | postUnsubscribeContext | postNotifyContext | getContextEntitiesByEntityId | postContextEntitiesByEntityId
  | getContextEntityAttributes | postContextEntityAttributes | getEntityByIdAttributeByName
  | postEntityByIdAttributeByName | getContextEntityTypes | postContextEntityTypes | getContextEntityTypeAttribute
  | postContextEntityTypeAttribute | postSubscribeContextAvailabilityConvOp | putAvailabilitySubscriptionConvOp
  | deleteAvailabilitySubscriptionConvOp | badVerbPutDeleteOnly | getIndividualContextEntity
  | putIndividualContextEntity | postIndividualContextEntity | deleteIndividualContextEntity | badVerbAllFour
  | getIndividualContextEntityAttribute | putIndividualContextEntityAttribute | postIndividualContextEntityAttribute
  | deleteIndividualContextEntityAttribute | getAttributeValueInstance | putAttributeValueInstance
  | deleteAttributeValueInstance | getNgsi10ContextEntityTypes | getNgsi10ContextEntityTypesAttribute
  | postSubscribeContextConvOp | putSubscriptionConvOp | deleteSubscriptionConvOp | getEntityTypes
  | getAttributesForEntityType | getAllContextEntities | getAllEntitiesWithTypeAndId | postAllEntitiesWithTypeAndId
  | putAllEntitiesWithTypeAndId | deleteAllEntitiesWithTypeAndId | getIndividualContextEntityAttributeWithTypeAndId
  | postIndividualContextEntityAttributeWithTypeAndId | putIndividualContextEntityAttributeWithTypeAndId
  | deleteIndividualContextEntityAttributeWithTypeAndId | getAttributeValueInstanceWithTypeAndId
  | postAttributeValueInstanceWithTypeAndId | putAttributeValueInstanceWithTypeAndId
  | deleteAttributeValueInstanceWithTypeAndId | getContextEntitiesByEntityIdAndType
  | postContextEntitiesByEntityIdAndType | getEntityByIdAttributeByNameWithTypeAndId
  | postEntityByIdAttributeByNameWithTypeAndId | logTraceTreat | statisticsTreat | statisticsCacheTreat
  | versionTreat | logLevelTreat | badVerbPutOnly | exitTreat | leakTreat | badNgsi9Request | badNgsi10Request
  | badRequest
deriving DecidableEq

/-- An entry of the table, with the components that it lists. -/
structure RestService where
  verb : String
  components : Nat
  listed : List String
  payloadWord : String
  treat : RestTreat
deriving DecidableEq

/-- The array of an entry: what is not listed is empty. -/
def RestService.compV (s : RestService) : List String := s.listed ++ List.replicate (10 - s.listed.length) ""

/-- A table of services.  It does not list more components than the array has places, and an entry with a number of
components lists as many. -/
structure ServiceVector where
  entries : List RestService
  listed_le : ∀ s ∈ entries, s.listed.length ≤ 10
  components_eq : ∀ s ∈ entries, s.components ≠ 0 → s.components = s.listed.length

/-! ### The loop -/

/-- The components of the URL against the array, from some place on.  Nothing is returned if the array is read behind
its end. -/
def matchComponents : List String → List String → Option Bool
  | _, [] => some true
  | [], _ :: _ => none
  | c :: cs, comp :: comps =>
    if c = "*" then matchComponents cs comps
    else if Text.strcasecmp c comp = false then some false
    else matchComponents cs comps

/-- How the loop over the table ends. -/
inductive Dispatch where
  | service (s : RestService)
  | unrecognized (payloadWord : String)
  | outside
deriving DecidableEq

/-- The loop over the table; `payloadWord` is that of the last entry whose components were compared. -/
def dispatch (method : String) (compV : List String) : List RestService → String → Dispatch
  | [], payloadWord => .unrecognized payloadWord
  | s :: serviceV, payloadWord =>
    if s.components ≠ 0 ∧ s.components ≠ compV.length then dispatch method compV serviceV payloadWord
    else if method ≠ s.verb ∧ s.verb ≠ "*" then dispatch method compV serviceV payloadWord
    else
      match matchComponents s.compV compV with
      | none => .outside
      | some false => dispatch method compV serviceV s.payloadWord
      | some true => .service s

/-! ### The table -/

/-- The entries for one URL, each with its method, payload word and function. -/
def services (components : Nat) (listed : List String) (rows : List (String × String × RestTreat)) :
    List RestService :=
  rows.map fun row => ⟨row.1, components, listed, row.2.1, row.2.2⟩

def apiV2 : List RestService :=
  services 1 ["v2"] [("GET", "", .entryPointsTreat), ("*", "", .badVerbGetOnly)] ++
  services 2 ["v2", "entities"]
    [("GET", "", .getEntities), ("POST", "", .postEntities), ("*", "", .badVerbGetPostOnly)] ++
  services 3 ["v2", "entities", "*"]
    [("GET", "", .getEntity), ("DELETE", "", .deleteEntity), ("*", "", .badVerbGetDeleteOnly)] ++
  services 4 ["v2", "entities", "*", "attrs"]
    [("GET", "", .getEntity), ("POST", "", .postEntity), ("PUT", "", .putEntity), ("PATCH", "", .patchEntity),
     ("*", "", .badVerbAllNotDelete)] ++
  services 6 ["v2", "entities", "*", "attrs", "*", "value"]
    [("GET", "", .getEntityAttributeValue), ("PUT", "", .putEntityAttributeValue), ("*", "", .badVerbGetPutOnly)] ++
  services 5 ["v2", "entities", "*", "attrs", "*"]
    [("GET", "", .getEntityAttribute), ("PUT", "", .putEntityAttribute), ("DELETE", "", .deleteEntity),
     ("*", "", .badVerbGetPutDeleteOnly)] ++
  services 3 ["v2", "types", "*"] [("GET", "", .getEntityType), ("*", "", .badVerbGetOnly)] ++
  services 2 ["v2", "types"] [("GET", "", .getEntityAllTypes), ("*", "", .badVerbGetOnly)] ++
  services 2 ["v2", "subscriptions"]
    [("GET", "", .getAllSubscriptions), ("POST", "", .postSubscriptions), ("*", "", .badVerbGetPostOnly)] ++
  services 3 ["v2", "subscriptions", "*"]
    [("GET", "", .getSubscription), ("DELETE", "", .deleteSubscription), ("PATCH", "", .patchSubscription),
     ("*", "", .badVerbGetDeletePatchOnly)] ++
  services 3 ["v2", "op", "query"] [("POST", "", .postBatchQuery), ("*", "", .badVerbPostOnly)] ++
  services 3 ["v2", "op", "update"] [("POST", "", .postBatchUpdate), ("*", "", .badVerbPostOnly)]

def registryStandardRequestsV0 : List RestService :=
  services 2 ["ngsi9", "registerContext"]
    [("POST", "registerContextRequest", .postRegisterContext), ("*", "registerContextRequest", .badVerbPostOnly)] ++
  services 2 ["ngsi9", "discoverContextAvailability"]
    [("POST", "discoverContextAvailabilityRequest", .postDiscoverContextAvailability),
     ("*", "discoverContextAvailabilityRequest", .badVerbPostOnly)] ++
  services 2 ["ngsi9", "subscribeContextAvailability"]
    [("POST", "subscribeContextAvailabilityRequest", .postSubscribeContextAvailability),
     ("*", "subscribeContextAvailabilityRequest", .badVerbPostOnly)] ++
  services 2 ["ngsi9", "unsubscribeContextAvailability"]
    [("POST", "unsubscribeContextAvailabilityRequest", .postUnsubscribeContextAvailability),
     ("*", "unsubscribeContextAvailabilityRequest", .badVerbPostOnly)] ++
  services 2 ["ngsi9", "updateContextAvailabilitySubscription"]
    [("POST", "updateContextAvailabilitySubscriptionRequest", .postUpdateContextAvailabilitySubscription),
     ("*", "updateContextAvailabilitySubscriptionRequest", .badVerbPostOnly)] ++
  services 2 ["ngsi9", "notifyContextAvailability"]
    [("POST", "notifyContextAvailabilityRequest", .postNotifyContextAvailability),
     ("*", "notifyContextAvailabilityRequest", .badVerbPostOnly)]

def registryStandardRequestsV1 : List RestService :=
  services 3 ["v1", "registry", "registerContext"]
    [("POST", "registerContextRequest", .postRegisterContext), ("*", "registerContextRequest", .badVerbPostOnly)] ++
  services 3 ["v1", "registry", "discoverContextAvailability"]
    [("POST", "discoverContextAvailabilityRequest", .postDiscoverContextAvailability),
     ("*", "discoverContextAvailabilityRequest", .badVerbPostOnly)] ++
  services 3 ["v1", "registry", "subscribeContextAvailability"]
    [("POST", "subscribeContextAvailabilityRequest", .postSubscribeContextAvailability),
     ("*", "subscribeContextAvailabilityRequest", .badVerbPostOnly)] ++
  services 3 ["v1", "registry", "unsubscribeContextAvailability"]
    [("POST", "unsubscribeContextAvailabilityRequest", .postUnsubscribeContextAvailability),
     ("*", "unsubscribeContextAvailabilityRequest", .badVerbPostOnly)] ++
  services 3 ["v1", "registry", "updateContextAvailabilitySubscription"]
    [("POST", "updateContextAvailabilitySubscriptionRequest", .postUpdateContextAvailabilitySubscription),
     ("*", "updateContextAvailabilitySubscriptionRequest", .badVerbPostOnly)] ++
  services 3 ["v1", "registry", "notifyContextAvailability"]
    [("POST", "notifyContextAvailabilityRequest", .postNotifyContextAvailability),
     ("*", "notifyContextAvailabilityRequest", .badVerbPostOnly)]

def standardRequestsV0 : List RestService :=
  services 2 ["ngsi10", "updateContext"]
    [("POST", "updateContextRequest", .postUpdateContext), ("*", "updateContextRequest", .badVerbPostOnly)] ++
  services 2 ["ngsi10", "queryContext"]
    [("POST", "queryContextRequest", .postQueryContext), ("*", "queryContextRequest", .badVerbPostOnly)] ++
  services 2 ["ngsi10", "subscribeContext"]
    [("POST", "subscribeContextRequest", .postSubscribeContext),
     ("*", "subscribeContextRequest", .badVerbPostOnly)] ++
  services 2 ["ngsi10", "updateContextSubscription"]
    [("POST", "updateContextSubscriptionRequest", .postUpdateContextSubscription),
     ("*", "updateContextSubscriptionRequest", .badVerbPostOnly)] ++
  services 2 ["ngsi10", "unsubscribeContext"]
    [("POST", "unsubscribeContextRequest", .postUnsubscribeContext),
     ("*", "unsubscribeContextRequest", .badVerbPostOnly)] ++
  services 2 ["ngsi10", "notifyContext"]
    [("POST", "notifyContextRequest", .postNotifyContext), ("*", "notifyContextRequest", .badVerbPostOnly)]

def standardRequestsV1 : List RestService :=
  services 2 ["v1", "updateContext"]
    [("POST", "updateContextRequest", .postUpdateContext), ("*", "updateContextRequest", .badVerbPostOnly)] ++
  services 2 ["v1", "queryContext"]
    [("POST", "queryContextRequest", .postQueryContext), ("*", "queryContextRequest", .badVerbPostOnly)] ++
  services 2 ["v1", "subscribeContext"]
    [("POST", "subscribeContextRequest", .postSubscribeContext),
     ("*", "subscribeContextRequest", .badVerbPostOnly)] ++
  services 2 ["v1", "updateContextSubscription"]
    [("POST", "updateContextSubscriptionRequest", .postUpdateContextSubscription),
     ("*", "updateContextSubscriptionRequest", .badVerbPostOnly)] ++
  services 2 ["v1", "unsubscribeContext"]
    [("POST", "unsubscribeContextRequest", .postUnsubscribeContext),
     ("*", "unsubscribeContextRequest", .badVerbPostOnly)] ++
  services 2 ["v1", "notifyContext"]
    [("POST", "notifyContextRequest", .postNotifyContext), ("*", "notifyContextRequest", .badVerbPostOnly)]

def registryConvenienceOperationsV0 : List RestService :=
  services 3 ["ngsi9", "contextEntities", "*"]
    [("GET", "", .getContextEntitiesByEntityId),
     ("POST", "registerProviderRequest", .postContextEntitiesByEntityId), ("*", "", .badVerbGetPostOnly)] ++
  services 4 ["ngsi9", "contextEntities", "*", "attributes"]
    [("GET", "", .getContextEntityAttributes), ("POST", "registerProviderRequest", .postContextEntityAttributes),
     ("*", "", .badVerbGetPostOnly)] ++
  services 5 ["ngsi9", "contextEntities", "*", "attributes", "*"]
    [("GET", "", .getEntityByIdAttributeByName),
     ("POST", "registerProviderRequest", .postEntityByIdAttributeByName), ("*", "", .badVerbGetPostOnly)] ++
  services 3 ["ngsi9", "contextEntityTypes", "*"]
    [("GET", "", .getContextEntityTypes), ("POST", "registerProviderRequest", .postContextEntityTypes),
     ("*", "", .badVerbGetPostOnly)] ++
  services 4 ["ngsi9", "contextEntityTypes", "*", "attributes"]
    [("GET", "", .getContextEntityTypes), ("POST", "registerProviderRequest", .postContextEntityTypes),
     ("*", "", .badVerbGetPostOnly)] ++
  services 5 ["ngsi9", "contextEntityTypes", "*", "attributes", "*"]
    [("GET", "", .getContextEntityTypeAttribute),
     ("POST", "registerProviderRequest", .postContextEntityTypeAttribute), ("*", "", .badVerbGetPostOnly)] ++
  services 2 ["ngsi9", "contextAvailabilitySubscriptions"]
    [("POST", "subscribeContextAvailabilityRequest", .postSubscribeContextAvailabilityConvOp),
     ("*", "", .badVerbPostOnly)] ++
  services 3 ["ngsi9", "contextAvailabilitySubscriptions", "*"]
    [("PUT", "updateContextAvailabilitySubscriptionRequest", .putAvailabilitySubscriptionConvOp),
     ("DELETE", "", .deleteAvailabilitySubscriptionConvOp), ("*", "", .badVerbPutDeleteOnly)]

def registryConvenienceOperationsV1 : List RestService :=
  services 4 ["v1", "registry", "contextEntities", "*"]
    [("GET", "", .getContextEntitiesByEntityId),
     ("POST", "registerProviderRequest", .postContextEntitiesByEntityId), ("*", "", .badVerbGetPostOnly)] ++
  services 5 ["v1", "registry", "contextEntities", "*", "attributes"]
    [("GET", "", .getContextEntityAttributes), ("POST", "registerProviderRequest", .postContextEntityAttributes),
     ("*", "", .badVerbGetPostOnly)] ++
  services 6 ["v1", "registry", "contextEntities", "*", "attributes", "*"]
    [("GET", "", .getEntityByIdAttributeByName),
     ("POST", "registerProviderRequest", .postEntityByIdAttributeByName), ("*", "", .badVerbGetPostOnly)] ++
  services 4 ["v1", "registry", "contextEntityTypes", "*"]
    [("GET", "", .getContextEntityTypes), ("POST", "registerProviderRequest", .postContextEntityTypes),
     ("*", "", .badVerbGetPostOnly)] ++
  services 5 ["v1", "registry", "contextEntityTypes", "*", "attributes"]
    [("GET", "", .getContextEntityTypes), ("POST", "registerProviderRequest", .postContextEntityTypes),
     ("*", "", .badVerbGetPostOnly)] ++
  services 6 ["v1", "registry", "contextEntityTypes", "*", "attributes", "*"]
    [("GET", "", .getContextEntityTypeAttribute),
     ("POST", "registerProviderRequest", .postContextEntityTypeAttribute), ("*", "", .badVerbGetPostOnly)] ++
  services 3 ["v1", "registry", "contextAvailabilitySubscriptions"]
    [("POST", "subscribeContextAvailabilityRequest", .postSubscribeContextAvailability),
     ("*", "", .badVerbPostOnly)] ++
  services 4 ["v1", "registry", "contextAvailabilitySubscriptions", "*"]
    [("PUT", "updateContextAvailabilitySubscriptionRequest", .putAvailabilitySubscriptionConvOp),
     ("DELETE", "", .deleteAvailabilitySubscriptionConvOp), ("*", "", .badVerbPutDeleteOnly)]

def convenienceOperationsV0 : List RestService :=
  services 3 ["ngsi10", "contextEntities", "*"]
    [("GET", "", .getIndividualContextEntity), ("PUT", "updateContextElementRequest", .putIndividualContextEntity),
     ("POST", "appendContextElementRequest", .postIndividualContextEntity),
     ("DELETE", "", .deleteIndividualContextEntity), ("*", "", .badVerbAllFour)] ++
  services 4 ["ngsi10", "contextEntities", "*", "attributes"]
    [("GET", "", .getIndividualContextEntity), ("PUT", "updateContextElementRequest", .putIndividualContextEntity),
     ("POST", "appendContextElementRequest", .postIndividualContextEntity),
     ("DELETE", "", .deleteIndividualContextEntity), ("*", "", .badVerbAllFour)] ++
  services 5 ["ngsi10", "contextEntities", "*", "attributes", "*"]
    [("GET", "", .getIndividualContextEntityAttribute),
     ("PUT", "updateContextAttributeRequest", .putIndividualContextEntityAttribute),
     ("POST", "updateContextAttributeRequest", .postIndividualContextEntityAttribute),
     ("DELETE", "", .deleteIndividualContextEntityAttribute), ("*", "", .badVerbAllFour)] ++
  services 6 ["ngsi10", "contextEntities", "*", "attributes", "*", "*"]
    [("GET", "", .getAttributeValueInstance), ("PUT", "updateContextAttributeRequest", .putAttributeValueInstance),
     ("DELETE", "", .deleteAttributeValueInstance), ("*", "", .badVerbGetPutDeleteOnly)] ++
  services 3 ["ngsi10", "contextEntityTypes", "*"]
    [("GET", "", .getNgsi10ContextEntityTypes), ("*", "", .badVerbGetOnly)] ++
  services 4 ["ngsi10", "contextEntityTypes", "*", "attributes"]
    [("GET", "", .getNgsi10ContextEntityTypes), ("*", "", .badVerbGetOnly)] ++
  services 5 ["ngsi10", "contextEntityTypes", "*", "attributes", "*"]
    [("GET", "", .getNgsi10ContextEntityTypesAttribute), ("*", "", .badVerbGetOnly)] ++
  services 2 ["ngsi10", "contextSubscriptions"]
    [("POST", "subscribeContextRequest", .postSubscribeContextConvOp), ("*", "", .badVerbPostOnly)] ++
  services 3 ["ngsi10", "contextSubscriptions", "*"]
    [("PUT", "updateContextSubscriptionRequest", .putSubscriptionConvOp), ("DELETE", "", .deleteSubscriptionConvOp),
     ("*", "", .badVerbPutDeleteOnly)]

def convenienceOperationsV1 : List RestService :=
  services 3 ["v1", "contextEntities", "*"]
    [("GET", "", .getIndividualContextEntity), ("PUT", "updateContextElementRequest", .putIndividualContextEntity),
     ("POST", "appendContextElementRequest", .postIndividualContextEntity),
     ("DELETE", "", .deleteIndividualContextEntity), ("*", "", .badVerbAllFour)] ++
  services 4 ["v1", "contextEntities", "*", "attributes"]
    [("GET", "", .getIndividualContextEntity), ("PUT", "updateContextElementRequest", .putIndividualContextEntity),
     ("POST", "appendContextElementRequest", .postIndividualContextEntity),
     ("DELETE", "", .deleteIndividualContextEntity), ("*", "", .badVerbAllFour)] ++
  services 5 ["v1", "contextEntities", "*", "attributes", "*"]
    [("GET", "", .getIndividualContextEntityAttribute),
     ("PUT", "updateContextAttributeRequest", .putIndividualContextEntityAttribute),
     ("POST", "updateContextAttributeRequest", .postIndividualContextEntityAttribute),
     ("DELETE", "", .deleteIndividualContextEntityAttribute), ("*", "", .badVerbAllFour)] ++
  services 6 ["v1", "contextEntities", "*", "attributes", "*", "*"]
    [("GET", "", .getAttributeValueInstance), ("PUT", "updateContextAttributeRequest", .putAttributeValueInstance),
     ("DELETE", "", .deleteAttributeValueInstance), ("*", "", .badVerbGetPutDeleteOnly)] ++
  services 3 ["v1", "contextEntityTypes", "*"]
    [("GET", "", .getNgsi10ContextEntityTypes), ("*", "", .badVerbGetOnly)] ++
  services 4 ["v1", "contextEntityTypes", "*", "attributes"]
    [("GET", "", .getNgsi10ContextEntityTypes), ("*", "", .badVerbGetOnly)] ++
  services 5 ["v1", "contextEntityTypes", "*", "attributes", "*"]
    [("GET", "", .getNgsi10ContextEntityTypesAttribute), ("*", "", .badVerbGetOnly)] ++
  services 2 ["v1", "contextSubscriptions"]
    [("POST", "subscribeContextRequest", .postSubscribeContextConvOp), ("*", "", .badVerbPostOnly)] ++
  services 3 ["v1", "contextSubscriptions", "*"]
    [("PUT", "updateContextSubscriptionRequest", .putSubscriptionConvOp), ("DELETE", "", .deleteSubscriptionConvOp),
     ("*", "", .badVerbPutDeleteOnly)] ++
  services 2 ["v1", "contextTypes"] [("GET", "", .getEntityTypes), ("*", "", .badVerbGetOnly)] ++
  services 3 ["v1", "contextTypes", "*"] [("GET", "", .getAttributesForEntityType), ("*", "", .badVerbGetOnly)] ++
  services 2 ["v1", "contextEntities"]
    [("GET", "", .getAllContextEntities), ("POST", "appendContextElementRequest", .postIndividualContextEntity),
     ("*", "", .badVerbGetPostOnly)] ++
  services 6 ["v1", "contextEntities", "type", "*", "id", "*"]
    [("GET", "", .getAllEntitiesWithTypeAndId),
     ("POST", "appendContextElementRequest", .postAllEntitiesWithTypeAndId),
     ("PUT", "updateContextElementRequest", .putAllEntitiesWithTypeAndId),
     ("DELETE", "", .deleteAllEntitiesWithTypeAndId), ("*", "", .badVerbAllFour)] ++
  services 8 ["v1", "contextEntities", "type", "*", "id", "*", "attributes", "*"]
    [("GET", "", .getIndividualContextEntityAttributeWithTypeAndId),
     ("POST", "updateContextAttributeRequest", .postIndividualContextEntityAttributeWithTypeAndId),
     ("PUT", "updateContextAttributeRequest", .putIndividualContextEntityAttributeWithTypeAndId),
     ("DELETE", "", .deleteIndividualContextEntityAttributeWithTypeAndId), ("*", "", .badVerbAllFour)] ++
  services 9 ["v1", "contextEntities", "type", "*", "id", "*", "attributes", "*", "*"]
    [("GET", "", .getAttributeValueInstanceWithTypeAndId),
     ("POST", "updateContextAttributeRequest", .postAttributeValueInstanceWithTypeAndId),
     ("PUT", "updateContextAttributeRequest", .putAttributeValueInstanceWithTypeAndId),
     ("DELETE", "", .deleteAttributeValueInstanceWithTypeAndId), ("*", "", .badVerbAllFour)] ++
  services 7 ["v1", "registry", "contextEntities", "type", "*", "id", "*"]
    [("GET", "", .getContextEntitiesByEntityIdAndType),
     ("POST", "registerProviderRequest", .postContextEntitiesByEntityIdAndType), ("*", "", .badVerbGetPostOnly)] ++
  services 9 ["v1", "registry", "contextEntities", "type", "*", "id", "*", "attributes", "*"]
    [("GET", "", .getEntityByIdAttributeByNameWithTypeAndId),
     ("POST", "registerProviderRequest", .postEntityByIdAttributeByNameWithTypeAndId),
     ("*", "", .badVerbGetPostOnly)]

def logRequestsV0 : List RestService :=
  services 2 ["log", "trace"]
    [("GET", "", .logTraceTreat), ("DELETE", "", .logTraceTreat), ("*", "", .badVerbGetDeleteOnly)] ++
  services 3 ["log", "trace", "*"]
    [("PUT", "", .logTraceTreat), ("DELETE", "", .logTraceTreat), ("*", "", .badVerbPutDeleteOnly)] ++
  services 2 ["log", "traceLevel"]
    [("GET", "", .logTraceTreat), ("DELETE", "", .logTraceTreat), ("*", "", .badVerbGetDeleteOnly)] ++
  services 3 ["log", "traceLevel", "*"]
    [("PUT", "", .logTraceTreat), ("DELETE", "", .logTraceTreat), ("*", "", .badVerbPutDeleteOnly)]

def logRequestsV1 : List RestService :=
  services 4 ["v1", "admin", "log", "trace"]
    [("GET", "", .logTraceTreat), ("DELETE", "", .logTraceTreat), ("*", "", .badVerbGetDeleteOnly)] ++
  services 5 ["v1", "admin", "log", "trace", "*"]
    [("PUT", "", .logTraceTreat), ("DELETE", "", .logTraceTreat), ("*", "", .badVerbPutDeleteOnly)] ++
  services 4 ["v1", "admin", "log", "traceLevel"]
    [("GET", "", .logTraceTreat), ("DELETE", "", .logTraceTreat), ("*", "", .badVerbGetDeleteOnly)] ++
  services 5 ["v1", "admin", "log", "traceLevel", "*"]
    [("PUT", "", .logTraceTreat), ("DELETE", "", .logTraceTreat), ("*", "", .badVerbPutDeleteOnly)]

def statRequestsV0 : List RestService :=
  services 1 ["statistics"]
    [("GET", "", .statisticsTreat), ("DELETE", "", .statisticsTreat), ("*", "", .badVerbGetDeleteOnly)]

def statRequestsV1 : List RestService :=
  services 3 ["v1", "admin", "statistics"]
    [("GET", "", .statisticsTreat), ("DELETE", "", .statisticsTreat), ("*", "", .badVerbGetDeleteOnly)]

def statCacheRequestsV0 : List RestService :=
  services 2 ["cache", "statistics"]
    [("GET", "", .statisticsCacheTreat), ("DELETE", "", .statisticsCacheTreat), ("*", "", .badVerbGetDeleteOnly)]

def statCacheRequestsV1 : List RestService :=
  services 4 ["v1", "admin", "cache", "statistics"]
    [("GET", "", .statisticsCacheTreat), ("DELETE", "", .statisticsCacheTreat), ("*", "", .badVerbGetDeleteOnly)]

def versionRequests : List RestService :=
  services 1 ["version"] [("GET", "", .versionTreat), ("*", "", .badVerbGetOnly)]

def loglevelRequestsV2 : List RestService :=
  services 2 ["admin", "log"] [("PUT", "", .logLevelTreat), ("*", "", .badVerbPutOnly)]

def exitRequests : List RestService :=
  services 2 ["exit", "*"] [("GET", "", .exitTreat)] ++
  services 1 ["exit"] [("GET", "", .exitTreat)]

def leakRequests : List RestService :=
  services 2 ["leak", "*"] [("GET", "", .leakTreat)] ++
  services 1 ["leak"] [("GET", "", .leakTreat)]

def invalidRequests : List RestService :=
  services 2 ["ngsi9", "*"] [("*", "", .badNgsi9Request)] ++
  services 2 ["ngsi10", "*"] [("*", "", .badNgsi10Request)]

/-- The last entry, which is for all other requests. -/
def invAll : RestService := ⟨"*", 0, ["*", "*", "*", "*", "*", "*"], "", .badRequest⟩
/-- The entries that are tried before the last one. -/
def namedServices (debug : Bool) : List RestService :=
  apiV2 ++ registryStandardRequestsV0 ++ registryStandardRequestsV1 ++ standardRequestsV0 ++ standardRequestsV1 ++
    registryConvenienceOperationsV0 ++ registryConvenienceOperationsV1 ++ convenienceOperationsV0 ++
    convenienceOperationsV1 ++ logRequestsV0 ++ logRequestsV1 ++ statRequestsV0 ++ statRequestsV1 ++
    statCacheRequestsV0 ++ statCacheRequestsV1 ++ versionRequests ++ loglevelRequestsV2 ++
    (if debug then exitRequests ++ leakRequests else []) ++ invalidRequests

/-- The entries that are tried first list as many components as they have. -/
theorem namedServices_listed (debug : Bool) :
    ∀ s ∈ namedServices debug, s.components ≠ 0 ∧ s.components = s.listed.length ∧ s.listed.length ≤ 10 := by
  cases debug <;> decide +kernel

/-- The table of the broker, of a build with or without `DEBUG`. -/
def restServiceV (debug : Bool) : ServiceVector where
  entries := namedServices debug ++ [invAll]
  listed_le := by
    rw [List.forall_mem_append, List.forall_mem_singleton]
    exact ⟨fun s hs => (namedServices_listed debug s hs).2.2, by decide⟩
  components_eq := by
    rw [List.forall_mem_append, List.forall_mem_singleton]
    exact ⟨fun s hs _ => (namedServices_listed debug s hs).2.1, by decide⟩

/-! ### What is promised -/

/-- The listed components are wildcards or, up to case, those of the URL. -/
def listedMatch : List String → List String → Bool
  | c :: cs, comp :: comps => (c = "*" || Text.strcasecmp c comp) && listedMatch cs comps
  | _, _ => true

/-- An entry is for a request. -/
def RestService.selects (method : String) (compV : List String) (s : RestService) : Bool :=
  (s.verb = method || s.verb = "*") && (s.components = 0 || s.components = compV.length) && listedMatch s.listed compV

/-- The loop reads inside the array and ends with the first entry that is for the request. -/
def RightlyDispatched (serviceV : ServiceVector) (method : String) (compV : List String) : Prop :=
  match dispatch method compV serviceV.entries "" with
  | .service s => serviceV.entries.find? (RestService.selects method compV) = some s
  | .unrecognized _ => serviceV.entries.find? (RestService.selects method compV) = none
  | .outside => False

/-! ### One entry -/

/-- From some place on, the components of the URL are empty and end before another place. -/
def EmptyBehind (start stop : Nat) (compV : List String) : Prop :=
  ∀ i comp, start ≤ i → compV[i]? = some comp → i < stop ∧ comp = ""

theorem emptyBehind_nil (start stop : Nat) : EmptyBehind start stop [] := by
  intro i comp _ h
  simp at h

theorem emptyBehind_cons (start stop : Nat) (comp : String) (compV : List String) :
    EmptyBehind (start + 1) (stop + 1) (comp :: compV) ↔ EmptyBehind start stop compV := by
  constructor
  · intro h i c hi hc
    obtain ⟨hlt, hempty⟩ := h (i + 1) c (by omega) (by simpa using hc)
    exact ⟨by omega, hempty⟩
  · intro h i c hi hc
    obtain ⟨i, rfl⟩ : ∃ j, i = j + 1 := ⟨i - 1, by omega⟩
    obtain ⟨hlt, hempty⟩ := h i c (by omega) (by simpa using hc)
    exact ⟨by omega, hempty⟩

theorem emptyBehind_zero (stop : Nat) (comp : String) (compV : List String) :
    EmptyBehind 0 (stop + 1) (comp :: compV) ↔ comp = "" ∧ EmptyBehind 0 stop compV := by
  constructor
  · intro h
    refine ⟨(h 0 comp (Nat.zero_le _) rfl).2, fun i c _ hc => ?_⟩
    obtain ⟨hlt, hempty⟩ := h (i + 1) c (Nat.zero_le _) (by simpa using hc)
    exact ⟨by omega, hempty⟩
  · rintro ⟨rfl, h⟩ i c _ hc
    cases i with
    | zero =>
      cases hc
      exact ⟨by omega, rfl⟩
    | succ i =>
      obtain ⟨hlt, hempty⟩ := h i c (Nat.zero_le _) (by simpa using hc)
      exact ⟨by omega, hempty⟩

theorem strcasecmp_empty {comp : String} : Text.strcasecmp "" comp = true ↔ comp = "" := by
  have hempty : "".toList.map Char.toLower = [] := rfl
  rw [Text.strcasecmp, beq_iff_eq, hempty, eq_comm, List.map_eq_nil_iff, String.toList_eq_nil_iff]

/-- The places that are not listed match what is empty, up to the end of the array. -/
theorem matchComponents_replicate (n : Nat) (compV : List String) :
    matchComponents (List.replicate n "") compV = some true ↔ EmptyBehind 0 n compV := by
  induction compV generalizing n with
  | nil => exact iff_of_true (by rw [matchComponents]) (emptyBehind_nil 0 n)
  | cons comp compV ih =>
    cases n with
    | zero =>
      refine iff_of_false (by simp [matchComponents]) fun h => ?_
      exact absurd (h 0 comp (Nat.zero_le _) rfl).1 (Nat.not_lt_zero _)
    | succ n =>
      rw [List.replicate_succ, matchComponents, if_neg (by decide), emptyBehind_zero, ← strcasecmp_empty, ← ih n]
      cases Text.strcasecmp "" comp <;> simp

/-- What is listed decides first. -/
theorem matchComponents_listed (listed : List String) (n : Nat) (compV : List String) :
    if listedMatch listed compV then
      matchComponents (listed ++ List.replicate n "") compV = some true ↔
        EmptyBehind listed.length (listed.length + n) compV
    else matchComponents (listed ++ List.replicate n "") compV = some false := by
  induction listed generalizing compV with
  | nil =>
    rw [listedMatch, if_pos rfl, List.nil_append, matchComponents_replicate, List.length_nil, Nat.zero_add]
    simp
  | cons c listed ih =>
    cases compV with
    | nil =>
      rw [listedMatch, if_pos rfl, matchComponents]
      · exact iff_of_true rfl (emptyBehind_nil _ _)
      · simp
    | cons comp compV =>
      have ih := ih compV
      rw [listedMatch, List.cons_append, matchComponents, List.length_cons, Nat.add_right_comm, emptyBehind_cons]
      by_cases hwild : c = "*"
      · simpa [hwild] using ih
      · cases hcomp : Text.strcasecmp c comp
        · simp [hwild]
        · simpa [hwild] using ih

theorem listedMatch_wildcards (n : Nat) (compV : List String) : listedMatch (List.replicate n "*") compV = true := by
  induction n generalizing compV with
  | zero => simp [listedMatch]
  | succ n ih => cases compV <;> simp [listedMatch, List.replicate_succ, ih]

/-- An entry with a number of components fits. -/
theorem RestService.emptyBehind_of_selects {method : String} {compV : List String} {s : RestService}
    (h : s.selects method compV = true) (hcomponents : s.components ≠ 0) (hlisted : s.components = s.listed.length) :
    EmptyBehind s.listed.length 10 compV := by
  have hlength : s.components = compV.length := by
    simp only [RestService.selects, Bool.and_eq_true, Bool.or_eq_true, decide_eq_true_eq] at h
    exact h.1.2.resolve_left hcomponents
  intro i comp hi hcomp
  have hlt := (List.getElem?_eq_some_iff.1 hcomp).1
  omega

/-! ### The table -/

/-- The services that are found match as the loop compares. -/
theorem matchComponents_of_dispatch {method : String} {compV : List String} {serviceV : List RestService}
    {payloadWord : String} {s : RestService} (h : dispatch method compV serviceV payloadWord = .service s) :
    matchComponents s.compV compV = some true := by
  induction serviceV generalizing payloadWord with
  | nil => cases h
  | cons s' serviceV ih =>
    rw [dispatch] at h
    split at h
    · exact ih h
    · split at h
      · exact ih h
      · split at h
        · cases h
        · exact ih h
        · rename_i hmatch
          cases h
          exact hmatch

/-- The loop ends with the first entry that is for the request, if the places that it does not list are matched. -/
theorem dispatch_spec (method : String) (compV : List String) (serviceV : List RestService) (payloadWord : String) :
    match serviceV.find? (RestService.selects method compV) with
    | none => ∃ word, dispatch method compV serviceV payloadWord = .unrecognized word
    | some s => matchComponents s.compV compV = some true → dispatch method compV serviceV payloadWord = .service s := by
  induction serviceV generalizing payloadWord with
  | nil => exact ⟨payloadWord, rfl⟩
  | cons s serviceV ih =>
    have hlist := matchComponents_listed s.listed (10 - s.listed.length) compV
    rw [List.find?_cons]
    by_cases hselects : s.selects method compV = true
    · have hfound := hselects
      simp only [RestService.selects, Bool.and_eq_true, Bool.or_eq_true, decide_eq_true_eq] at hselects
      obtain ⟨⟨hverb, hcomponents⟩, -⟩ := hselects
      simp only [hfound]
      intro hmatch
      rw [dispatch, if_neg (by tauto), if_neg (by tauto), hmatch]
    · have hskip :
          ∃ word, dispatch method compV (s :: serviceV) payloadWord = dispatch method compV serviceV word := by
        rw [dispatch]
        split
        · exact ⟨payloadWord, rfl⟩
        · split
          · exact ⟨payloadWord, rfl⟩
          · rename_i hcomponents hverb
            have hno : listedMatch s.listed compV = false := by
              simp only [RestService.selects, Bool.and_eq_true, Bool.or_eq_true, decide_eq_true_eq] at hselects
              rw [← Bool.not_eq_true]
              tauto
            rw [if_neg (by simp [hno])] at hlist
            rw [RestService.compV, hlist]
            exact ⟨s.payloadWord, rfl⟩
      obtain ⟨word, hword⟩ := hskip
      rw [hword]
      simp only [hselects]
      exact ih word

/-- A table is followed if and only if the first entry for the request matches on the places that it does not list. -/
theorem rightlyDispatched_iff (serviceV : ServiceVector) (method : String) (compV : List String) :
    RightlyDispatched serviceV method compV ↔
      ∀ s ∈ serviceV.entries.find? (RestService.selects method compV), EmptyBehind s.listed.length 10 compV := by
  have hspec := dispatch_spec method compV serviceV.entries ""
  unfold RightlyDispatched
  rcases hfind : serviceV.entries.find? (RestService.selects method compV) with _ | s
  · rw [hfind] at hspec
    obtain ⟨word, hword⟩ := hspec
    simp [hword]
  · rw [hfind] at hspec
    have hlist := matchComponents_listed s.listed (10 - s.listed.length) compV
    have hle := serviceV.listed_le s (List.mem_of_find?_eq_some hfind)
    have hmatch : listedMatch s.listed compV = true := by
      have hselects := List.find?_some hfind
      simp only [RestService.selects, Bool.and_eq_true] at hselects
      exact hselects.2
    rw [if_pos hmatch, Nat.add_sub_cancel' hle] at hlist
    simp only [Option.mem_def, Option.some.injEq, forall_eq']
    rw [← hlist]
    constructor
    · intro h
      split at h
      · rename_i s' hdispatch
        cases h
        exact matchComponents_of_dispatch hdispatch
      · cases h
      · exact h.elim
    · intro h
      rw [hspec h]

/-- The table is followed for the request if and only if an entry other than the last one is for it, or the components
of the URL are empty from the seventh on and no more than ten. -/
theorem dispatched_iff (debug : Bool) (method url : String) :
    RightlyDispatched (restServiceV debug) method (stringSplit url '/') ↔
      (∃ s ∈ namedServices debug, s.selects method (stringSplit url '/') = true) ∨
        EmptyBehind 6 10 (stringSplit url '/') := by
  generalize stringSplit url '/' = compV
  rw [rightlyDispatched_iff]
  have hlast : invAll.selects method compV = true := by
    have hwild : listedMatch invAll.listed compV = true := listedMatch_wildcards 6 compV
    rw [RestService.selects, hwild]
    simp [invAll]
  have hentries : (restServiceV debug).entries = namedServices debug ++ [invAll] := rfl
  rw [hentries, List.find?_append]
  rcases hfind : (namedServices debug).find? (RestService.selects method compV) with _ | s
  · have hnone : ¬∃ s ∈ namedServices debug, s.selects method compV = true := by
      rintro ⟨s, hs, hselects⟩
      exact List.find?_eq_none.1 hfind s hs hselects
    simp only [Option.none_or, List.find?_cons, hlast, Option.mem_def, Option.some.injEq, forall_eq', hnone, false_or]
    rfl
  · have hs := List.mem_of_find?_eq_some hfind
    have hselects := List.find?_some hfind
    obtain ⟨hne, hlength, -⟩ := namedServices_listed debug s hs
    have hfits := RestService.emptyBehind_of_selects hselects hne hlength
    refine iff_of_true ?_ (Or.inl ⟨s, hs, hselects⟩)
    simpa using hfits

/-- Eleven components, the last four of them empty but one: the array of the last entry is read behind its end. -/
theorem read_outside :
    ¬RightlyDispatched (restServiceV false) "GET" (stringSplit "/a/b/c/d/e/f/////g" '/') := by
  have houtside :
      dispatch "GET" (stringSplit "/a/b/c/d/e/f/////g" '/') (restServiceV false).entries "" = .outside := by
    decide +kernel
  unfold RightlyDispatched
  rw [houtside]
  exact id

-- With seven components the last entry is not found.
example : dispatch "GET" (stringSplit "/a/b/c/d/e/f/g" '/') (restServiceV false).entries "" = .unrecognized "" := by
  decide +kernel

end OrionBroker.RestServices
