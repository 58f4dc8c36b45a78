import OrionBroker.Text

/-!
# Attribute keys (`dbFieldEncoding.h`)

In the `attrs` sub-document of an entity an attribute is stored under the key `effectiveName name id`: its name with
every `.` replaced by `=` (a dot is not allowed in a field name), followed by `__` and the metadata ID when there is
one.  `basePart` and `idPart` take a key apart at its first `__`.

The two directions are inverse to each other exactly for the pairs in which the first `__` of the key is the
separator (`Splittable`): the name has no `__`, and does not end in `_` when an ID follows (`key_roundtrip_iff`).
-/

namespace OrionBroker

def basePart (name : String) : String :=
  match Text.find name "__" with
  | none => name
  | some pos => Text.substr name 0 pos

def idPart (name : String) : String :=
  match Text.find name "__" with
  | none => ""
  | some pos => Text.substr name (pos + 2) name.toList.length

def dbDotEncode (s : String) : String := Text.replaceChar '.' '=' s

def dbDotDecode (s : String) : String := Text.replaceChar '=' '.' s

/-- The key of an attribute in `attrs`: attributes with metadata ID are stored as `<attrName>__<ID>`. -/
def effectiveName (name id : String) : String :=
  if id = "" then dbDotEncode name else dbDotEncode name ++ "__" ++ id

/-- The first `__` in the key of the attribute, if any, separates the name from the ID. -/
def Splittable (name id : String) : Prop :=
  Text.find name "__" = none ∧ (id ≠ "" → name.toList.getLast? ≠ some '_')

instance (name id : String) : Decidable (Splittable name id) := by unfold Splittable; infer_instance

/-! ### Dots -/

private def encodeChar (c : Char) : Char := if c = '.' then '=' else c

private theorem toList_dbDotEncode (s : String) : (dbDotEncode s).toList = s.toList.map encodeChar := by
  simp [dbDotEncode, Text.replaceChar, encodeChar]

private theorem encodeChar_eq_underscore {c : Char} : encodeChar c = '_' ↔ c = '_' := by
  unfold encodeChar
  split
  · subst_vars; decide
  · rfl

theorem dbDotDecode_dbDotEncode {s : String} (h : '=' ∉ s.toList) : dbDotDecode (dbDotEncode s) = s := by
  apply String.ext
  rw [dbDotDecode, Text.replaceChar, String.toList_ofList, toList_dbDotEncode, List.map_map]
  conv => rhs; rw [← List.map_id s.toList]
  apply List.map_congr_left
  intro c hc
  have hne : c ≠ '=' := fun e => h (e ▸ hc)
  by_cases hd : c = '.'
  · subst hd; decide
  · simp [encodeChar, hd, hne]

theorem no_equals_dbDotDecode (s : String) : '=' ∉ (dbDotDecode s).toList := by
  rw [dbDotDecode, Text.replaceChar, String.toList_ofList]
  intro h
  obtain ⟨c, -, hc⟩ := List.mem_map.1 h
  split at hc
  · revert hc; decide
  · contradiction

/-- The names that the substitution of dots keeps are those without `=`. -/
theorem dbDotDecode_dbDotEncode_iff {s : String} : dbDotDecode (dbDotEncode s) = s ↔ '=' ∉ s.toList :=
  ⟨fun h => h ▸ no_equals_dbDotDecode _, dbDotDecode_dbDotEncode⟩

/-- A string without dots is the encoding of the one it is decoded to. -/
theorem dbDotEncode_dbDotDecode {b : String} (h : '.' ∉ b.toList) : dbDotEncode (dbDotDecode b) = b := by
  apply String.ext
  unfold dbDotEncode dbDotDecode Text.replaceChar
  rw [String.toList_ofList, String.toList_ofList, List.map_map]
  conv => rhs; rw [← List.map_id b.toList]
  apply List.map_congr_left
  intro c hc
  have hne : c ≠ '.' := fun e => h (e ▸ hc)
  by_cases hd : c = '='
  · subst hd; decide
  · simp [hd, hne]

/-- A name without dots is its own encoding. -/
theorem dbDotEncode_of_no_dot {n : String} (h : '.' ∉ n.toList) : dbDotEncode n = n := Text.replaceChar_of_not_mem _ h

theorem dbDotDecode_of_no_equals {s : String} (h : '=' ∉ s.toList) : dbDotDecode s = s := Text.replaceChar_of_not_mem _ h

theorem length_dbDotDecode (s : String) : (dbDotDecode s).toList.length = s.toList.length := by
  simp [dbDotDecode, Text.replaceChar]

theorem no_dot_dbDotEncode (s : String) : '.' ∉ (dbDotEncode s).toList := by
  rw [toList_dbDotEncode]
  intro h
  obtain ⟨c, -, hc⟩ := List.mem_map.1 h
  unfold encodeChar at hc
  split at hc
  · revert hc; decide
  · contradiction

/-! ### The separator -/

private theorem underscores_infix_map {f : Char → Char} (hf : ∀ c, f c = '_' ↔ c = '_') (l : List Char) :
    ['_', '_'] <:+: l.map f ↔ ['_', '_'] <:+: l := by
  constructor
  · rintro ⟨s, t, h⟩
    obtain ⟨l₁, l₂, rfl, h₁, h₂⟩ := List.map_eq_append_iff.1 h.symm
    obtain ⟨s', u, rfl, -, h₃⟩ := List.map_eq_append_iff.1 h₁
    obtain ⟨a, u', rfl, ha, h₄⟩ := List.map_eq_cons_iff.1 h₃
    obtain ⟨b, u'', rfl, hb, h₅⟩ := List.map_eq_cons_iff.1 h₄
    rw [hf] at ha hb
    rw [List.map_eq_nil_iff] at h₅
    subst ha hb h₅
    exact ⟨s', l₂, rfl⟩
  · rintro ⟨s, t, rfl⟩
    have := (hf '_').2 rfl
    exact ⟨s.map f, t.map f, by simp [this]⟩

private theorem find_dbDotEncode (s : String) : Text.find (dbDotEncode s) "__" = none ↔ Text.find s "__" = none := by
  unfold Text.find
  rw [Text.findList_eq_none, Text.findList_eq_none, toList_dbDotEncode]
  exact not_congr (underscores_infix_map (fun _ => encodeChar_eq_underscore) _)

private theorem underscores_infix_snoc (l : List Char) :
    ['_', '_'] <:+: l ++ ['_'] ↔ ['_', '_'] <:+: l ∨ l.getLast? = some '_' := by
  constructor
  · rintro ⟨s, t, h⟩
    rcases List.eq_nil_or_concat t with rfl | ⟨t', c, rfl⟩
    · have h' : s ++ ['_'] ++ ['_'] = l ++ ['_'] := by simpa using h
      have := List.append_cancel_right h'
      exact Or.inr (by rw [← this]; simp)
    · have h' : s ++ ['_', '_'] ++ t' ++ [c] = l ++ ['_'] := by simpa using h
      have := List.append_inj_left' h' rfl
      exact Or.inl ⟨s, t', this⟩
  · rintro (h | h)
    · exact h.trans (List.prefix_append l ['_']).isInfix
    · obtain ⟨l', rfl⟩ := List.getLast?_eq_some_iff.1 h
      exact ⟨l', [], by simp⟩

private theorem getLast?_dbDotEncode (s : String) :
    (dbDotEncode s).toList.getLast? = some '_' ↔ s.toList.getLast? = some '_' := by
  rw [toList_dbDotEncode, List.getLast?_map]
  rcases s.toList.getLast? with _ | c
  · simp
  · simp [encodeChar_eq_underscore]

/-- With an ID the first `__` of the key is the separator, exactly for a splittable pair. -/
private theorem find_effectiveName_iff {name id : String} (hid : id ≠ "") :
    Text.find (effectiveName name id) "__" = some name.toList.length ↔ Splittable name id := by
  have hl : (effectiveName name id).toList = (dbDotEncode name).toList ++ ['_', '_'] ++ id.toList := by
    simp [effectiveName, hid]
  have hlen : (dbDotEncode name).toList.length = name.toList.length := by simp [toList_dbDotEncode]
  have hfind : Text.find (effectiveName name id) "__" =
      Text.findList ['_', '_'] ((dbDotEncode name).toList ++ ['_', '_'] ++ id.toList) := by
    rw [Text.find, hl]; rfl
  rw [hfind, ← hlen, Text.findList_append_iff _ (by decide)]
  show ¬ ['_', '_'] <:+: (dbDotEncode name).toList ++ ['_'] ↔ _
  rw [underscores_infix_snoc, not_or, getLast?_dbDotEncode, ← Text.findList_eq_none]
  have := find_dbDotEncode name
  unfold Text.find at this
  unfold Splittable Text.find
  simp only [ne_eq, hid, not_false_eq_true, forall_const]
  exact and_congr this Iff.rfl

theorem find_effectiveName_nil (name : String) :
    Text.find (effectiveName name "") "__" = none ↔ Splittable name "" := by
  simp [effectiveName, find_dbDotEncode, Splittable]

theorem basePart_effectiveName {name id : String} (h : Splittable name id) :
    basePart (effectiveName name id) = dbDotEncode name := by
  by_cases hid : id = ""
  · subst hid
    rw [basePart, (find_effectiveName_nil name).2 h]
    rfl
  · rw [basePart, (find_effectiveName_iff hid).2 h]
    apply String.ext
    simp [Text.substr, effectiveName, hid, toList_dbDotEncode]

theorem idPart_effectiveName {name id : String} (h : Splittable name id) : idPart (effectiveName name id) = id := by
  by_cases hid : id = ""
  · subst hid
    rw [idPart, (find_effectiveName_nil name).2 h]
  · have hl : (effectiveName name id).toList = ((dbDotEncode name).toList ++ ['_', '_']) ++ id.toList := by
      simp [effectiveName, hid]
    have hlen : name.toList.length + 2 = ((dbDotEncode name).toList ++ ['_', '_']).length := by
      simp [toList_dbDotEncode]
    rw [idPart, (find_effectiveName_iff hid).2 h]
    apply String.ext
    simp only [Text.substr, String.toList_ofList]
    rw [hl, hlen, List.drop_left, List.take_of_length_le (by simp; omega)]

/-- The base part of a string that starts with a separated name does not depend on what follows. -/
private theorem basePart_separated (n t : List Char) :
    basePart (String.ofList (n ++ ['_', '_'] ++ t)) = basePart (String.ofList (n ++ ['_', '_'])) := by
  obtain ⟨pos, hpos⟩ : ∃ pos, Text.findList ['_', '_'] (n ++ ['_', '_']) = some pos := by
    rcases h : Text.findList ['_', '_'] (n ++ ['_', '_']) with _ | pos
    · rw [Text.findList_eq_none] at h
      exact absurd (List.suffix_append _ _).isInfix h
    · exact ⟨pos, rfl⟩
  have hsep : "__".toList = ['_', '_'] := by decide
  have hfind : Text.find (String.ofList (n ++ ['_', '_'])) "__" = some pos := by
    rw [Text.find, hsep, String.toList_ofList, hpos]
  have hfind' : Text.find (String.ofList (n ++ ['_', '_'] ++ t)) "__" = some pos := by
    rw [Text.find, hsep, String.toList_ofList, Text.findList_append_right t hpos]
  rw [basePart, hfind', basePart, hfind]
  show Text.substr _ 0 pos = Text.substr _ 0 pos
  unfold Text.substr
  rw [String.toList_ofList, String.toList_ofList, List.drop_zero, List.drop_zero,
    List.take_append_of_le_length (Text.findList_some hpos).2]

/-- What stands before the first dot of a key has the same base part. -/
theorem basePart_takeWhile (name id : String) :
    basePart (String.ofList ((effectiveName name id).toList.takeWhile (· ≠ '.'))) = basePart (effectiveName name id) := by
  have hname : ∀ c ∈ (dbDotEncode name).toList ++ ['_', '_'], decide (c ≠ '.') = true := by
    intro c hc
    rw [decide_eq_true_iff]
    rintro rfl
    rcases List.mem_append.1 hc with hc | hc
    · exact no_dot_dbDotEncode name hc
    · revert hc; decide
  by_cases hid : id = ""
  · have hl : (effectiveName name id).toList.takeWhile (· ≠ '.') = (effectiveName name id).toList := by
      rw [List.takeWhile_eq_self_iff]
      intro c hc
      rw [effectiveName, if_pos hid] at hc
      exact hname c (List.mem_append_left _ hc)
    rw [hl, String.ofList_toList]
  · have hl : (effectiveName name id).toList = ((dbDotEncode name).toList ++ ['_', '_']) ++ id.toList := by
      simp [effectiveName, hid]
    have hkey : effectiveName name id = String.ofList (((dbDotEncode name).toList ++ ['_', '_']) ++ id.toList) := by
      rw [← hl, String.ofList_toList]
    rw [hl, List.takeWhile_append_of_pos hname, basePart_separated, hkey, basePart_separated]

/-- A key whose base part is as long as the name is split at the separator. -/
theorem splittable_of_length {name id : String}
    (h : (basePart (effectiveName name id)).toList.length = name.toList.length) : Splittable name id := by
  have hpos : ∀ pos, Text.find (effectiveName name id) "__" = some pos →
      pos = name.toList.length ∧ pos + 2 ≤ (effectiveName name id).toList.length := by
    intro pos hf
    have hocc := (Text.findList_some hf).1.length_le
    rw [basePart, hf] at h
    simp [Text.substr] at h hocc
    omega
  by_cases hid : id = ""
  · subst hid
    rw [← find_effectiveName_nil]
    rcases hf : Text.find (effectiveName name "") "__" with _ | pos
    · rfl
    · obtain ⟨h1, h2⟩ := hpos pos hf
      simp [effectiveName, toList_dbDotEncode] at h2
      omega
  · rw [← find_effectiveName_iff hid]
    rcases hf : Text.find (effectiveName name id) "__" with _ | pos
    · exfalso
      rw [Text.find, Text.findList_eq_none] at hf
      exact hf ⟨(dbDotEncode name).toList, id.toList, by simp [effectiveName, hid]⟩
    · rw [(hpos pos hf).1]

/-- The base part of a key is not longer than the name. -/
theorem length_basePart_le (name id : String) :
    (basePart (effectiveName name id)).toList.length ≤ name.toList.length := by
  have hencoded : (dbDotEncode name).toList.length = name.toList.length := by
    rw [toList_dbDotEncode, List.length_map]
  unfold basePart
  rcases hf : Text.find (effectiveName name id) "__" with _ | pos
  · have hid : id = "" := by
      by_contra hid
      rw [Text.find, Text.findList_eq_none] at hf
      exact hf ⟨(dbDotEncode name).toList, id.toList, by simp [effectiveName, hid]⟩
    dsimp only
    rw [effectiveName, if_pos hid, hencoded]
  · have hlength : (Text.substr (effectiveName name id) 0 pos).toList.length ≤ pos := by
      unfold Text.substr
      rw [String.toList_ofList]
      exact List.length_take_le _ _
    refine hlength.trans ?_
    by_cases hid : id = ""
    · have hocc := (Text.findList_some hf).2
      simp only [effectiveName, if_pos hid, hencoded] at hocc
      omega
    · refine Text.findList_le hf ⟨id.toList, ?_⟩
      rw [← hencoded]
      simp [effectiveName, hid]

/-- A name without `=` and an ID come back from their key exactly for the splittable pairs. -/
theorem key_roundtrip_iff {name id : String} (h : '=' ∉ name.toList) :
    (dbDotDecode (basePart (effectiveName name id)) = name ∧ idPart (effectiveName name id) = id) ↔
      Splittable name id := by
  constructor
  · rintro ⟨h1, -⟩
    apply splittable_of_length
    rw [← length_dbDotDecode, h1]
  · intro hs
    rw [basePart_effectiveName hs, idPart_effectiveName hs, dbDotDecode_dbDotEncode h]
    exact ⟨rfl, rfl⟩

/-- Splittable pairs have different keys. -/
theorem effectiveName_inj {name id name' id' : String} (h : '=' ∉ name.toList) (h' : '=' ∉ name'.toList)
    (hs : Splittable name id) (hs' : Splittable name' id')
    (he : effectiveName name id = effectiveName name' id') : name = name' ∧ id = id' := by
  have h1 := (key_roundtrip_iff h).2 hs
  have h2 := (key_roundtrip_iff h').2 hs'
  rw [he] at h1
  exact ⟨h1.1.symm.trans h2.1, h1.2.symm.trans h2.2⟩

end OrionBroker
