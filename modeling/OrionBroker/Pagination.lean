import OrionBroker.ContextElement
import OrionBroker.ForbiddenChars
import OrionBroker.Scope
import OrionBroker.ServicePath

/-!
# Parameters of the uri (`rest.cpp`, `ConnectionInfo.cpp`)

`uriArgumentGet` is called for every parameter of the uri, one after the other; a parameter that is not accepted leaves
an error, and then the request is not served.  The parameters of the pagination are checked to be decimal numbers, and
`atoi` makes a number of the text each time that it is needed.

An `int` has only 32 bits, and the check of `limit` is done on the number that `atoi` makes: `pagination_iff` says when
the numbers are those that were given.
-/

namespace OrionBroker.UriParams

open Areas (atoi atoi_of_lt atoi_lt)
open JsonText (natOf)
open OStream (Digits)

/-! ### The source -/

/-- What `uriArgumentGet` reads and writes of a connection; `answer` is the error of the last parameter that was not
accepted. -/
structure ConnectionInfo where
  uriParam : String → String
  uriParamOptions : String → Bool := fun _ => false
  uriParamTypes : List String := []
  answer : Option StatusCode := none

def MAX_PAGINATION_LIMIT : String := "1000"
def DEFAULT_PAGINATION_OFFSET : String := "0"
def DEFAULT_PAGINATION_LIMIT : String := "20"
def DEFAULT_PAGINATION_DETAILS : String := "off"

/-- Before the first parameter. -/
def connected : ConnectionInfo where
  uriParam key :=
    if key = "offset" then DEFAULT_PAGINATION_OFFSET
    else if key = "limit" then DEFAULT_PAGINATION_LIMIT
    else if key = "details" then DEFAULT_PAGINATION_DETAILS
    else ""

namespace ConnectionInfo

variable (ciP : ConnectionInfo)

def set (key value : String) : ConnectionInfo := { ciP with uriParam := Function.update ciP.uriParam key value }

def refuse (details : String) : ConnectionInfo := { ciP with answer := some ⟨.SccBadRequest, details⟩ }

end ConnectionInfo

def validOptions : List String :=
  ["count", "normalized", "values", "keyValues", "append", "unique", "dateCreated", "dateModified"]

/-- The options up to the first one that is not valid; `false` if there is one or two of them exclude each other. -/
def uriParamOptionsParse (ciP : ConnectionInfo) (value : String) : ConnectionInfo × Bool :=
  let vec := stringSplit value ','
  let valid := vec.takeWhile fun item => item ∈ validOptions
  let options := fun item => ciP.uriParamOptions item || decide (item ∈ valid)
  ({ ciP with uriParamOptions := options },
    valid.length = vec.length && !(options "keyValues" && options "values") &&
      !(options "keyValues" && options "unique") && !(options "unique" && options "values"))

/-- `unsupported` characters of a key or a value. -/
def containsForbiddenChars (key val : String) : Bool :=
  if key = "geometry" ∨ key = "georel" then forbiddenChars val ['=', ';']
  else if key = "coords" then forbiddenChars val [';']
  else if key ≠ "q" ∧ key ≠ "idPattern" then forbiddenChars key [] || forbiddenChars val []
  else false

/-- The end of `uriArgumentGet`, for a parameter that has not been refused before. -/
def keep (key value : String) (ciP : ConnectionInfo) : ConnectionInfo :=
  if containsForbiddenChars key value then (ciP.set key value).refuse "invalid character in URI parameter"
  else ciP.set key value

def uriArgumentGet (ciP : ConnectionInfo) (key : String) (val : Option String) : ConnectionInfo :=
  match val with
  | none => ciP.refuse ("Empty right-hand-side for URI param /" ++ key ++ "/")
  | some value =>
    if value = "" then ciP.refuse ("Empty right-hand-side for URI param /" ++ key ++ "/")
    else if key = "offset" then
      if value.toList.all Char.isDigit then keep key value ciP
      else ciP.refuse ("Bad pagination offset: /" ++ value ++ "/ [must be a decimal number]")
    else if key = "limit" then
      if value.toList.all Char.isDigit then
        if atoi value.toList > atoi MAX_PAGINATION_LIMIT.toList then
          ciP.refuse ("Bad pagination limit: /" ++ value ++ "/ [max: " ++ MAX_PAGINATION_LIMIT ++ "]")
        else if atoi value.toList = 0 then
          ciP.refuse ("Bad pagination limit: /" ++ value ++ "/ [a value of ZERO is unacceptable]")
        else keep key value ciP
      else ciP.refuse ("Bad pagination limit: /" ++ value ++ "/ [must be a decimal number]")
    else if key = "details" then
      if Text.strcasecmp value "on" = false ∧ Text.strcasecmp value "off" = false then
        ciP.refuse ("Bad value for /details/: /" ++ value ++ "/ [accepted: /on/, /ON/, /off/, /OFF/. Default is /off/]")
      else keep key value ciP
    else if key = "attributesFormat" then keep key value (ciP.set "attributeFormat" value)
    else if key = "attributeFormat" then keep key value (ciP.set "attributesFormat" value)
    else if key = "options" then
      let parsed := uriParamOptionsParse (ciP.set key value) value
      if parsed.2 then keep key value parsed.1
      else keep key value (parsed.1.refuse "Invalid value for URI param /options/")
    else if key = "type" then
      let types := if ',' ∈ value.toList then stringSplit value ',' else [value]
      keep key value { ciP.set key value with uriParamTypes := ciP.uriParamTypes ++ types }
    else keep key value ciP

/-- `MHD_get_connection_values`: one parameter after the other. -/
def uriArguments (arguments : List (String × Option String)) : ConnectionInfo :=
  arguments.foldl (fun ciP argument => uriArgumentGet ciP argument.1 argument.2) connected

/-- `atoi(uriParam[URI_PARAM_PAGINATION_LIMIT].c_str())`. -/
def ConnectionInfo.limit (ciP : ConnectionInfo) : Int := atoi (ciP.uriParam "limit").toList

def ConnectionInfo.offset (ciP : ConnectionInfo) : Int := atoi (ciP.uriParam "offset").toList

/-! ### Accepted parameters -/

section Accepted

variable {ciP : ConnectionInfo} {key value : String} {val : Option String}

@[simp] theorem answer_refuse (ciP : ConnectionInfo) (details : String) :
    (ciP.refuse details).answer = some ⟨.SccBadRequest, details⟩ := rfl

@[simp] theorem answer_set (ciP : ConnectionInfo) (key value : String) : (ciP.set key value).answer = ciP.answer := rfl

theorem uriParam_set (ciP : ConnectionInfo) (key value name : String) :
    (ciP.set key value).uriParam name = if name = key then value else ciP.uriParam name := Function.update_apply ..

theorem keep_of_accepted (h : (keep key value ciP).answer = none) :
    ciP.answer = none ∧ keep key value ciP = ciP.set key value := by
  unfold keep at h ⊢
  split
  · rename_i hforbidden
    rw [if_pos hforbidden] at h
    cases h
  · rename_i hforbidden
    rw [if_neg hforbidden] at h
    exact ⟨h, rfl⟩

/-- The text of an accepted parameter. -/
structure Kept (key value : String) (before after : ConnectionInfo) : Prop where
  answer : before.answer = none
  offset : key = "offset" → value ≠ "" ∧ Digits value.toList
  limit : key = "limit" → value ≠ "" ∧ Digits value.toList ∧ atoi value.toList ≤ 1000 ∧ atoi value.toList ≠ 0
  params : ∀ name, name = "offset" ∨ name = "limit" →
    after.uriParam name = if name = key then value else before.uriParam name

theorem kept_of_keep {before : ConnectionInfo} (hkeep : (keep key value ciP).answer = none)
    (hanswer : ciP.answer = none → before.answer = none)
    (hparams : ∀ name, name = "offset" ∨ name = "limit" → name = key ∨ ciP.uriParam name = before.uriParam name)
    (hoffset : key = "offset" → value ≠ "" ∧ Digits value.toList)
    (hlimit : key = "limit" → value ≠ "" ∧ Digits value.toList ∧ atoi value.toList ≤ 1000 ∧ atoi value.toList ≠ 0) :
    Kept key value before (keep key value ciP) := by
  obtain ⟨hnone, heq⟩ := keep_of_accepted hkeep
  refine ⟨hanswer hnone, hoffset, hlimit, fun name hname => ?_⟩
  rw [heq, uriParam_set]
  split
  · rfl
  · rename_i hne
    exact (hparams name hname).resolve_left hne

theorem atoi_max : atoi MAX_PAGINATION_LIMIT.toList = 1000 := by decide +kernel

theorem kept_of_accepted (h : (uriArgumentGet ciP key val).answer = none) :
    ∃ value, val = some value ∧ Kept key value ciP (uriArgumentGet ciP key val) := by
  -- a key that is not one of the pagination, and what is done before the parameter is kept
  have hother (value : String) {ciP' : ConnectionInfo} (hoffset : key ≠ "offset") (hlimit : key ≠ "limit")
      (hanswer : ciP'.answer = none → ciP.answer = none)
      (hparams : ∀ name, name = "offset" ∨ name = "limit" → name = key ∨ ciP'.uriParam name = ciP.uriParam name)
      (hkeep : (keep key value ciP').answer = none) : Kept key value ciP (keep key value ciP') :=
    kept_of_keep hkeep hanswer hparams (fun heq => absurd heq hoffset) fun heq => absurd heq hlimit
  have hset (name' value name : String) (hname : name = "offset" ∨ name = "limit") (hoffset : name' ≠ "offset")
      (hlimit : name' ≠ "limit") : (ciP.set name' value).uriParam name = ciP.uriParam name := by
    rw [uriParam_set, if_neg]
    rintro rfl
    exact hname.elim hoffset hlimit
  revert h
  fun_cases uriArgumentGet ciP key val
  -- the parameters that are refused
  case case1 | case2 | case4 | case5 | case6 | case8 | case9 =>
    intro h
    cases h
  all_goals
    intro h
    refine ⟨_, rfl, ?_⟩
  case case3 value hne hkey hdigits =>
    subst hkey
    exact kept_of_keep h id (fun name _ => .inr rfl) (fun _ => ⟨hne, List.all_eq_true.1 hdigits⟩)
      fun heq => absurd heq (by decide)
  case case7 value hne hoffset hkey hdigits hle hzero =>
    rw [atoi_max, not_lt] at hle
    exact kept_of_keep h id (fun name _ => .inr rfl) (fun heq => absurd heq hoffset)
      fun _ => ⟨hne, List.all_eq_true.1 hdigits, hle, hzero⟩
  case case10 value hne hoffset hlimit hkey hgood => exact hother value hoffset hlimit id (fun name _ => .inr rfl) h
  case case11 value hne hoffset hlimit hdetails hkey | case12 value hne hoffset hlimit hdetails hformats hkey =>
    exact hother value hoffset hlimit id (fun name hname => .inr (hset _ _ name hname (by decide) (by decide))) h
  case case13 value hne hoffset hlimit hdetails hformats hformat hkey parsed hparsed =>
    exact hother value hoffset hlimit id (fun name hname => .inr (hset _ _ name hname hoffset hlimit)) h
  case case14 value hne hoffset hlimit hdetails hformats hformat hkey parsed hparsed =>
    refine hother value hoffset hlimit ?_ (fun name hname => .inr (hset _ _ name hname hoffset hlimit)) h
    rintro ⟨⟩
  case case15 value hne hoffset hlimit hdetails hformats hformat hoptions hkey types =>
    exact hother value hoffset hlimit id (fun name hname => .inr (hset _ _ name hname hoffset hlimit)) h
  case case16 value hne hoffset hlimit hdetails hformats hformat hoptions htype =>
    exact hother value hoffset hlimit id (fun name _ => .inr rfl) h

/-- The texts of the two parameters are decimal numbers, and `atoi` makes an acceptable number of the limit. -/
structure Paginated (ciP : ConnectionInfo) : Prop where
  offset : Digits (ciP.uriParam "offset").toList
  limit : Digits (ciP.uriParam "limit").toList
  le_max : ciP.limit ≤ 1000
  ne_zero : ciP.limit ≠ 0

theorem Paginated.step (hpaginated : Paginated ciP) (h : (uriArgumentGet ciP key val).answer = none) :
    Paginated (uriArgumentGet ciP key val) := by
  obtain ⟨value, -, hkept⟩ := kept_of_accepted h
  have hoffset := hkept.params "offset" (.inl rfl)
  have hlimit := hkept.params "limit" (.inr rfl)
  have hlimitValue : (uriArgumentGet ciP key val).limit = if "limit" = key then atoi value.toList else ciP.limit := by
    unfold ConnectionInfo.limit
    rw [hlimit]
    split <;> rfl
  refine ⟨?_, ?_, ?_, ?_⟩
  · rw [hoffset]
    split
    · rename_i heq
      exact (hkept.offset heq.symm).2
    · exact hpaginated.offset
  · rw [hlimit]
    split
    · rename_i heq
      exact (hkept.limit heq.symm).2.1
    · exact hpaginated.limit
  · rw [hlimitValue]
    split
    · rename_i heq
      exact (hkept.limit heq.symm).2.2.1
    · exact hpaginated.le_max
  · rw [hlimitValue]
    split
    · rename_i heq
      exact (hkept.limit heq.symm).2.2.2
    · exact hpaginated.ne_zero

theorem paginated_connected : Paginated connected :=
  ⟨List.all_eq_true.1 (by decide +kernel), List.all_eq_true.1 (by decide +kernel), by decide +kernel, by decide +kernel⟩

/-- After any parameters that are accepted. -/
theorem paginated_of_accepted {arguments : List (String × Option String)} (h : (uriArguments arguments).answer = none) :
    Paginated (uriArguments arguments) := by
  induction arguments using List.reverseRecOn with
  | nil => exact paginated_connected
  | append_singleton arguments argument ih =>
    unfold uriArguments at h ih ⊢
    rw [List.foldl_append, List.foldl_cons, List.foldl_nil] at h ⊢
    obtain ⟨value, -, hkept⟩ := kept_of_accepted h
    exact (ih hkept.answer).step h

end Accepted

/-! ### The numbers -/

/-- The numbers that are used later are those that were given, and acceptable ones. -/
structure RightNumbers (ciP : ConnectionInfo) : Prop where
  limit_pos : 1 ≤ ciP.limit
  limit_le : ciP.limit ≤ 1000
  offset_nonneg : 0 ≤ ciP.offset
  limit_given : ciP.limit = natOf (ciP.uriParam "limit").toList
  offset_given : ciP.offset = natOf (ciP.uriParam "offset").toList

/-- The numbers are right if and only if both fit into an `int`. -/
theorem pagination_iff (arguments : List (String × Option String)) (h : (uriArguments arguments).answer = none) :
    RightNumbers (uriArguments arguments) ↔
      natOf ((uriArguments arguments).uriParam "limit").toList < 2 ^ 31 ∧
        natOf ((uriArguments arguments).uriParam "offset").toList < 2 ^ 31 := by
  have hpaginated := paginated_of_accepted h
  generalize uriArguments arguments = ciP at hpaginated ⊢
  have hlimit : ciP.limit < 2 ^ 31 := atoi_lt _
  have hoffset : ciP.offset < 2 ^ 31 := atoi_lt _
  constructor
  · intro hright
    have hlimitGiven := hright.limit_given
    have hoffsetGiven := hright.offset_given
    omega
  · rintro ⟨hlimitFits, hoffsetFits⟩
    have hlimitGiven : ciP.limit = natOf (ciP.uriParam "limit").toList := atoi_of_lt hpaginated.limit hlimitFits
    have hoffsetGiven : ciP.offset = natOf (ciP.uriParam "offset").toList := atoi_of_lt hpaginated.offset hoffsetFits
    have hne := hpaginated.ne_zero
    exact ⟨by omega, hpaginated.le_max, by omega, hlimitGiven, hoffsetGiven⟩

/-- The second page of five. -/
theorem pagination_of_five :
    RightNumbers (uriArguments [("limit", some "5"), ("offset", some "5")]) ↔
      natOf ((uriArguments [("limit", some "5"), ("offset", some "5")]).uriParam "limit").toList < 2 ^ 31 ∧
        natOf ((uriArguments [("limit", some "5"), ("offset", some "5")]).uriParam "offset").toList < 2 ^ 31 :=
  pagination_iff [("limit", some "5"), ("offset", some "5")] (by decide +kernel)

/-- Three thousand millions are accepted as a limit, and are negative as an `int`. -/
theorem negative_limit :
    (uriArguments [("limit", some "3000000000")]).answer = none ∧
      ¬RightNumbers (uriArguments [("limit", some "3000000000")]) := by
  refine ⟨by decide +kernel, fun hright => ?_⟩
  have hlimit : (uriArguments [("limit", some "3000000000")]).limit = -1294967296 := by decide +kernel
  have hpos := hright.limit_pos
  rw [hlimit] at hpos
  omega

end OrionBroker.UriParams
