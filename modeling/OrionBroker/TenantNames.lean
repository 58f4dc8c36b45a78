import OrionBroker.Cells
import Mathlib.Algebra.Order.Group.Nat
import Mathlib.Algebra.Group.Int.Defs
import Mathlib.Data.Int.Order.Basic

/-!
# Names of tenants (`rest.cpp`, `string.cpp`, `RestService.cpp`, `MongoGlobal.cpp`)

The tenant of a request comes in a header.  It is copied in lower case into an array (`strToLower`), checked
(`tenantCheck`), and appended to the prefix of the databases (`composeDatabaseName`).  The cache of subscriptions takes
the tenant from the name of a database again, by way of an array that is smaller by one (`tenantFromDb`).

Both arrays are too small for some texts: `strToLower` truncates to one character more than fits
(`strToLower_iff`), and a tenant of the greatest length leaves no space for the terminator
(`tenant_from_its_database_iff`).
-/

namespace OrionBroker

open Cells

abbrev SERVICE_NAME_MAX_LEN : Nat := 50

/-- The C string of a string. -/
def c_str (s : String) : List Char := upTo '\x00' s.toList

/-! ### The source -/

/-- A turn of the loop. -/
def lowerAt (source : List Char) (dest : List (Option Char)) (ix : Nat) : Option (List (Option Char)) :=
  (source[ix]?).bind fun c => write dest ix c.toLower

/-- The length of the text at `source` is converted to an `int`. -/
def strToLower (dest : List (Option Char)) (source : List Char) (toSize : Int) : Option (List (Option Char)) :=
  let length := Int.bmod (upTo '\x00' source).length (2 ^ 32)
  let fromSize := if toSize < Int.bmod (length + 1) (2 ^ 32) then toSize else length
  ((List.range fromSize.toNat).foldlM (lowerAt (source ++ ['\x00'])) dest).bind fun dest => write dest fromSize.toNat '\x00'

/-- The tenant of a request, with an array of `SERVICE_NAME_MAX_LEN + 1` characters. -/
def tenantFromHttpHeader (tenant : String) : Option String :=
  let dest := List.replicate (SERVICE_NAME_MAX_LEN + 1) none
  ((strToLower dest (c_str tenant) dest.length).bind (text '\x00')).map String.ofList

def tenantCheck (tenant : String) : String :=
  if (c_str tenant).length > SERVICE_NAME_MAX_LEN then "bad length - a tenant name can be max 50 characters long"
  else if (c_str tenant).all fun c => c.isAlphanum || c = '_' then "OK"
  else "bad character in tenant name - only underscore and alphanumeric characters are allowed"

def composeDatabaseName (dbPrefix : String) (multitenant : Bool) (tenant : String) : String :=
  if multitenant = false ∨ tenant = "" then dbPrefix else dbPrefix ++ "-" ++ tenant

/-- `none` if it reads outside the array. -/
def tenantFromDb (dbPrefix database : String) : Option String :=
  let start := c_str (dbPrefix ++ "-")
  if start = (c_str database).take start.length then
    let tenant := List.replicate SERVICE_NAME_MAX_LEN none
    ((strncpy '\x00' tenant ((c_str database).drop start.length) SERVICE_NAME_MAX_LEN).bind (text '\x00')).map String.ofList
  else some ""

/-! ### Lower case -/

section Lower

variable {dest : List (Option Char)} {source : List Char}

theorem toLower_ne_zero {c : Char} (h : c ≠ '\x00') : c.toLower ≠ '\x00' := by
  unfold Char.toLower
  split
  · rename_i hupper
    intro heq
    have hval : (c.val + ('a'.val - 'A'.val)).toNat = 0 := congrArg (fun c : Char => c.val.toNat) heq
    have hlow : 65 ≤ c.val.toNat := hupper.1
    have hhigh : c.val.toNat ≤ 90 := hupper.2
    have hshift : ('a'.val - 'A'.val).toNat = 32 := rfl
    rw [UInt32.toNat_add, hshift] at hval
    omega
  · exact h

/-- The loop writes the first characters in lower case. -/
theorem foldlM_lowerAt (dest : List (Option Char)) (back : List Char) {n : Nat} (h : n ≤ source.length) :
    (List.range n).foldlM (lowerAt (source ++ back)) dest = writeAll dest 0 ((source.take n).map Char.toLower) := by
  induction n with
  | zero => rfl
  | succ n ih =>
    have hlt : n < source.length := h
    have hread : (source ++ back)[n]? = some source[n] := by
      rw [List.getElem?_append_left hlt, List.getElem?_eq_getElem hlt]
    rw [List.range_succ, List.foldlM_append, ih (Nat.le_of_lt hlt), List.take_succ_eq_append_getElem hlt, List.map_append,
      List.map_singleton, writeAll_concat, List.length_map, List.length_take, Nat.min_eq_left (Nat.le_of_lt hlt)]
    cases writeAll dest 0 ((source.take n).map Char.toLower) with
    | none => rfl
    | some cells =>
      simp [lowerAt, hread]

/-- The number of characters that are copied. -/
def copied (source : List Char) (toSize : Int) : Nat :=
  let length := Int.bmod (upTo '\x00' source).length (2 ^ 32)
  (if toSize < Int.bmod (length + 1) (2 ^ 32) then toSize else length).toNat

/-- The comparison with the size, in the range of an `int`. -/
theorem copied_eq {source : List Char} {length : Int} (h : Int.bmod (upTo '\x00' source).length (2 ^ 32) = length)
    (toSize : Int) :
    copied source toSize =
      if length < 2 ^ 31 - 1 ∧ toSize < length + 1 ∨ length = 2 ^ 31 - 1 ∧ toSize < -2 ^ 31 then toSize.toNat
      else length.toNat := by
  have hlow : -(2 ^ 31) ≤ length := h ▸ Int.le_bmod (by decide)
  have hhigh : length < 2 ^ 31 := h ▸ Int.bmod_lt (by decide)
  have hnext : Int.bmod (length + 1) (2 ^ 32) = if length = 2 ^ 31 - 1 then -2 ^ 31 else length + 1 := by
    split
    · rename_i hmax
      rw [hmax]
      decide
    · exact Int.bmod_eq_of_le (by omega) (by omega)
  unfold copied
  dsimp only
  rw [h, hnext]
  split <;> split <;> split <;> omega

theorem bmod_length_le (n : Nat) : Int.bmod n (2 ^ 32) ≤ n := by
  by_cases hsmall : n < 2 ^ 31
  · exact Int.le_of_eq (Int.bmod_eq_of_le (by omega) (by omega))
  · have hlt : Int.bmod n (2 ^ 32) < 2 ^ 31 := Int.bmod_lt (by decide)
    omega

theorem copied_le (source : List Char) (toSize : Int) : copied source toSize ≤ (upTo '\x00' source).length := by
  have hle := bmod_length_le (upTo '\x00' source).length
  rw [copied_eq rfl]
  split <;> omega

/-- What is written, with the terminator, if it fits. -/
theorem strToLower_eq (dest : List (Option Char)) (source : List Char) (toSize : Int) :
    strToLower dest source toSize =
      if copied source toSize < dest.length then
        some ((((upTo '\x00' source).take (copied source toSize)).map Char.toLower).map some ++ some '\x00' ::
          dest.drop (copied source toSize + 1))
      else none := by
  have hsplit : source ++ ['\x00'] = upTo '\x00' source ++ (source.dropWhile (· ≠ '\x00') ++ ['\x00']) := by
    rw [← List.append_assoc, upTo, List.takeWhile_append_dropWhile]
  have hlength : (((upTo '\x00' source).take (copied source toSize)).map Char.toLower).length = copied source toSize := by
    rw [List.length_map, List.length_take, Nat.min_eq_left (copied_le source toSize)]
  have hrun : strToLower dest source toSize =
      ((List.range (copied source toSize)).foldlM (lowerAt (source ++ ['\x00'])) dest).bind fun dest =>
        write dest (copied source toSize) '\x00' := rfl
  have hconcat := writeAll_concat dest 0 (((upTo '\x00' source).take (copied source toSize)).map Char.toLower) '\x00'
  rw [hlength, Nat.zero_add] at hconcat
  rw [hrun, hsplit, foldlM_lowerAt dest _ (copied_le source toSize), ← hconcat, writeAll_zero, List.length_append, hlength]
  rw [List.map_append, List.append_assoc]
  rfl

/-- The text in lower case, as much of it as fits into the array with its terminator. -/
def LowerCopy (dest : List (Option Char)) (source : List Char) (cells : List (Option Char)) : Prop :=
  cells.length = dest.length ∧
    text '\x00' cells = some (((upTo '\x00' source).take (dest.length - 1)).map Char.toLower)

/-- All depends on how many characters are copied. -/
theorem lowerCopy_iff (dest : List (Option Char)) (source : List Char) (hpos : 0 < dest.length) :
    (∃ cells, strToLower dest source dest.length = some cells ∧ LowerCopy dest source cells) ↔
      copied source dest.length = min (dest.length - 1) (upTo '\x00' source).length := by
  have hle := copied_le source dest.length
  have hzero : ∀ n, '\x00' ∉ ((upTo '\x00' source).take n).map Char.toLower := by
    intro n hmem
    obtain ⟨c, hc, heq⟩ := List.mem_map.1 hmem
    have hne : c ≠ '\x00' := fun hc' => not_mem_upTo '\x00' source (List.mem_of_mem_take (hc' ▸ hc))
    exact toLower_ne_zero hne heq
  rw [strToLower_eq]
  constructor
  · rintro ⟨cells, hcells, -, htext⟩
    split at hcells
    · rw [Option.some.injEq] at hcells
      rw [← hcells, text_terminated (hzero _), Option.some.injEq] at htext
      have hlength := congrArg List.length htext
      rw [List.length_map, List.length_map, List.length_take, List.length_take] at hlength
      omega
    · cases hcells
  · intro hcopied
    have hfits : copied source dest.length < dest.length := by omega
    refine ⟨_, if_pos hfits, ?_, ?_⟩
    · rw [List.length_append, List.length_map, List.length_map, List.length_take, List.length_cons, List.length_drop]
      omega
    · rw [text_terminated (hzero _), hcopied, ← List.take_take, List.take_length]

/-- The copy stays in the array and is right if and only if the text fits, or its length as an `int` is by chance that
of the array without its terminator. -/
theorem strToLower_iff (dest : List (Option Char)) (source : List Char) (hpos : 0 < dest.length)
    (hint : dest.length < 2 ^ 31) :
    (∃ cells, strToLower dest source dest.length = some cells ∧ LowerCopy dest source cells) ↔
      (upTo '\x00' source).length < dest.length ∨
        2 ^ 31 ≤ (upTo '\x00' source).length ∧
          (Int.bmod (upTo '\x00' source).length (2 ^ 32)).toNat = dest.length - 1 := by
  rw [lowerCopy_iff dest source hpos, copied_eq rfl]
  generalize (upTo '\x00' source).length = n
  by_cases hsmall : n < 2 ^ 31
  · have hsame : Int.bmod n (2 ^ 32) = n := Int.bmod_eq_of_le (by omega) (by omega)
    rw [hsame]
    split <;> omega
  · have hhigh : Int.bmod n (2 ^ 32) < 2 ^ 31 := Int.bmod_lt (by decide)
    generalize Int.bmod n (2 ^ 32) = length at hhigh ⊢
    split <;> omega

/-- A text that does not fit makes it write one character behind the array. -/
theorem strToLower_outside : ¬∃ cells, strToLower [none] ['A'] 1 = some cells ∧ LowerCopy [none] ['A'] cells := by
  rintro ⟨cells, hcells, -⟩
  have hnone : strToLower [none] ['A'] 1 = none := by decide
  rw [hnone] at hcells
  cases hcells

/-- A text of one character fits with its terminator. -/
theorem strToLower_fits :
    (∃ cells, strToLower [none, none] ['A'] 2 = some cells ∧ LowerCopy [none, none] ['A'] cells) ↔
      (upTo '\x00' ['A']).length < 2 ∨
        2 ^ 31 ≤ (upTo '\x00' ['A']).length ∧ (Int.bmod (upTo '\x00' ['A']).length (2 ^ 32)).toNat = 2 - 1 :=
  strToLower_iff [none, none] ['A'] (by decide) (by decide)

/-- A header that is longer than a name of a service is written behind the array on the stack. -/
theorem tenantFromHttpHeader_eq (tenant : String) (h : (c_str tenant).length < 2 ^ 31) :
    tenantFromHttpHeader tenant =
      if (c_str tenant).length ≤ SERVICE_NAME_MAX_LEN then some (String.ofList ((c_str tenant).map Char.toLower))
      else none := by
  have htext : upTo '\x00' (c_str tenant) = c_str tenant := upTo_of_not_mem (not_mem_upTo '\x00' tenant.toList)
  have hlength : Int.bmod (upTo '\x00' (c_str tenant)).length (2 ^ 32) = (c_str tenant).length := by
    rw [htext]
    exact Int.bmod_eq_of_le (by omega) (by omega)
  have hcopied := copied_eq hlength (List.replicate (SERVICE_NAME_MAX_LEN + 1) (none : Option Char)).length
  rw [List.length_replicate] at hcopied
  unfold tenantFromHttpHeader
  dsimp only
  rw [strToLower_eq, List.length_replicate, htext]
  by_cases hfits : (c_str tenant).length ≤ SERVICE_NAME_MAX_LEN
  · have hall : copied (c_str tenant) ((SERVICE_NAME_MAX_LEN + 1 : Nat) : Int) = (c_str tenant).length := by
      rw [hcopied]
      split <;> omega
    have hzero : '\x00' ∉ (c_str tenant).map Char.toLower := by
      intro hmem
      obtain ⟨c, hc, heq⟩ := List.mem_map.1 hmem
      refine toLower_ne_zero ?_ heq
      rintro rfl
      exact not_mem_upTo '\x00' tenant.toList hc
    rw [hall, if_pos (by omega), if_pos hfits, Option.bind_some, List.take_length, text_terminated hzero]
    rfl
  · have hmore : ¬copied (c_str tenant) ((SERVICE_NAME_MAX_LEN + 1 : Nat) : Int) < SERVICE_NAME_MAX_LEN + 1 := by
      rw [hcopied]
      split <;> omega
    rw [if_neg hmore, if_neg hfits]
    rfl

end Lower

/-! ### Databases -/

section Databases

variable {dbPrefix tenant : String}

/-- The tenant of a database of a tenant. -/
theorem tenantFromDb_composeDatabaseName (dbPrefix : String) (hne : tenant ≠ "") :
    tenantFromDb dbPrefix (composeDatabaseName dbPrefix true tenant) =
      if '\x00' ∈ dbPrefix.toList then some ""
      else if (c_str tenant).length < SERVICE_NAME_MAX_LEN then some (String.ofList (c_str tenant))
      else none := by
  have hcompose : composeDatabaseName dbPrefix true tenant = dbPrefix ++ "-" ++ tenant := if_neg (by simp [hne])
  have hread : ∀ back : List Char, ((strncpy '\x00' (List.replicate SERVICE_NAME_MAX_LEN none) back
      SERVICE_NAME_MAX_LEN).bind (text '\x00')).map String.ofList =
        if (upTo '\x00' back).length < SERVICE_NAME_MAX_LEN then some (String.ofList (upTo '\x00' back)) else none := by
    intro back
    rw [text_strncpy List.length_replicate]
    split <;> rfl
  unfold tenantFromDb
  dsimp only
  rw [hcompose, hread]
  by_cases hzero : '\x00' ∈ dbPrefix.toList
  · -- nothing behind the prefix is read
    have hcut : ∀ back : String, c_str (dbPrefix ++ back) = c_str dbPrefix := by
      intro back
      rw [c_str, String.toList_append, upTo_append_of_mem hzero]
      rfl
    rw [String.append_assoc, hcut, hcut, if_pos (List.take_length).symm, if_pos hzero, List.drop_length]
    rfl
  · have hstart : '\x00' ∉ (dbPrefix ++ "-").toList := by
      rw [String.toList_append, List.mem_append, not_or]
      exact ⟨hzero, by decide⟩
    have htext : c_str (dbPrefix ++ "-") = (dbPrefix ++ "-").toList := upTo_of_not_mem hstart
    have hdatabase : c_str (dbPrefix ++ "-" ++ tenant) = (dbPrefix ++ "-").toList ++ c_str tenant := by
      rw [c_str, String.toList_append, upTo_append hstart]
      rfl
    have hagain : upTo '\x00' (c_str tenant) = c_str tenant := upTo_of_not_mem (not_mem_upTo '\x00' tenant.toList)
    rw [htext, hdatabase, if_pos List.take_left.symm, if_neg hzero, List.drop_left, hagain]

theorem length_of_tenantCheck (h : tenantCheck tenant = "OK") : (c_str tenant).length ≤ SERVICE_NAME_MAX_LEN := by
  unfold tenantCheck at h
  split at h
  · exact absurd h (by decide)
  · omega

/-- An accepted tenant is read back from the name of its database if and only if it is not as long as a tenant may be;
the strings are the ones that a request and a command line can give. -/
theorem tenant_from_its_database_iff (dbPrefix tenant : String) (hcheck : tenantCheck tenant = "OK") (hne : tenant ≠ "") :
    tenantFromDb dbPrefix (composeDatabaseName dbPrefix true tenant) = some tenant ↔
      tenant.length ≠ SERVICE_NAME_MAX_LEN ∧ '\x00' ∉ dbPrefix.toList ∧ '\x00' ∉ tenant.toList := by
  have hlength := length_of_tenantCheck hcheck
  rw [tenantFromDb_composeDatabaseName dbPrefix hne]
  by_cases hzeros : '\x00' ∈ dbPrefix.toList
  · rw [if_pos hzeros, Option.some.injEq]
    exact iff_of_false (Ne.symm hne) fun h => h.2.1 hzeros
  · rw [if_neg hzeros]
    by_cases htenant : '\x00' ∈ tenant.toList
    · refine iff_of_false ?_ fun h => h.2.2 htenant
      split
      · rw [Option.some.injEq]
        intro heq
        rw [← heq, String.toList_ofList] at htenant
        exact not_mem_upTo '\x00' _ htenant
      · exact nofun
    · have hwhole : c_str tenant = tenant.toList := upTo_of_not_mem htenant
      rw [hwhole, String.length_toList] at hlength ⊢
      by_cases hlimit : tenant.length = SERVICE_NAME_MAX_LEN
      · rw [if_neg (by omega)]
        exact iff_of_false nofun fun h => h.1 hlimit
      · rw [if_pos (by omega), String.ofList_toList]
        exact iff_of_true rfl ⟨hlimit, hzeros, htenant⟩

/-- A tenant that is shorter comes back. -/
theorem tenant_from_its_database :
    tenantFromDb "orion" (composeDatabaseName "orion" true "smartcity") = some "smartcity" ↔
      "smartcity".length ≠ SERVICE_NAME_MAX_LEN ∧ '\x00' ∉ "orion".toList ∧ '\x00' ∉ "smartcity".toList :=
  tenant_from_its_database_iff "orion" "smartcity" (by decide) (by decide)

/-- A tenant of fifty letters fills the array without a terminator. -/
theorem longest_tenant_unterminated :
    tenantCheck (String.ofList (List.replicate 50 'a')) = "OK" ∧
      tenantFromDb "orion" (composeDatabaseName "orion" true (String.ofList (List.replicate 50 'a'))) = none := by
  refine ⟨by decide, ?_⟩
  rw [tenantFromDb_composeDatabaseName "orion" (by decide)]
  decide

end Databases

end OrionBroker
