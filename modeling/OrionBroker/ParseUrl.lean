import OrionBroker.Scope

/-!
# Parts of an url (`string.cpp`)

`parseUrl` splits an url at its slashes and the third part, the authority, at its colons.  `stringSplit` skips leading
delimiters, so slashes before the scheme and colons before the host are lost, and an authority of colons has no part at
all: then `hostTokens[0]` is read outside of the vector.  The second part, between the two slashes, is not looked at.
-/

namespace OrionBroker

open JsonText OStream
open Areas (atoi atoi_of_lt atoi_lt)

/-! ### Splitting -/

section Split

variable {d : Char} {s : String}

theorem stringSplit_of_ne (h : s.toList.dropWhile (· = d) ≠ []) :
    stringSplit s d = ((s.toList.dropWhile (· = d)).splitOn d).map String.ofList :=
  if_neg h

theorem stringSplit_eq_nil_iff : stringSplit s d = [] ↔ ∀ c ∈ s.toList, c = d := by
  unfold stringSplit
  dsimp only
  split
  · rename_i h
    rw [List.dropWhile_eq_nil_iff] at h
    exact iff_of_true rfl fun c hc => by simpa using h c hc
  · rename_i h
    rw [List.dropWhile_eq_nil_iff] at h
    refine iff_of_false ?_ fun hall => h fun c hc => by simpa using hall c hc
    simp

theorem dropWhile_of_head_ne (h : s.toList.head? ≠ some d) : s.toList.dropWhile (· = d) = s.toList := by
  cases hs : s.toList with
  | nil => rfl
  | cons c l =>
    rw [hs] at h
    exact List.dropWhile_cons_of_neg (by simpa using h)

/-- The parts put together again, each with the delimiter in front. -/
theorem flatMap_stringSplit (hne : s ≠ "") (h : s.toList.head? ≠ some d) :
    (stringSplit s d).flatMap (fun part => d :: part.toList) = d :: s.toList := by
  have hdrop := dropWhile_of_head_ne h
  have hlist : s.toList ≠ [] := fun heq => hne (String.toList_eq_nil_iff.1 heq)
  rw [stringSplit_of_ne (by rwa [hdrop]), hdrop, List.flatMap_map]
  simpa using Text.flatMap_splitOn d s.toList

theorem not_mem_of_mem_stringSplit {part : String} (h : part ∈ stringSplit s d) : d ∉ part.toList := by
  unfold stringSplit at h
  dsimp only at h
  split at h
  · cases h
  · obtain ⟨l, hl, rfl⟩ := List.mem_map.1 h
    rw [String.toList_ofList]
    exact Text.not_mem_of_mem_splitOn hl

theorem mem_of_mem_stringSplit {part : String} {c : Char} (h : part ∈ stringSplit s d) (hc : c ∈ part.toList) :
    c = d ∨ c ∈ s.toList := by
  unfold stringSplit at h
  dsimp only at h
  split at h
  · cases h
  · obtain ⟨l, hl, rfl⟩ := List.mem_map.1 h
    rw [String.toList_ofList] at hc
    rcases List.mem_cons.1 (Text.mem_of_mem_splitOn hl hc) with hc | hc
    · exact .inl hc
    · exact .inr ((List.dropWhile_suffix _).subset hc)

theorem stringSplit_append {l rest : List Char} (hne : l ≠ []) (hl : d ∉ l) (hs : s.toList = l ++ d :: rest) :
    stringSplit s d = String.ofList l :: (rest.splitOn d).map String.ofList := by
  have hhead : s.toList.head? ≠ some d := by
    cases l with
    | nil => exact absurd rfl hne
    | cons c l =>
      rw [hs, List.cons_append, List.head?_cons]
      rintro ⟨⟩
      exact hl List.mem_cons_self
  rw [stringSplit_of_ne (by rw [dropWhile_of_head_ne hhead, hs]; simp), dropWhile_of_head_ne hhead, hs,
    List.splitOn_append_cons_self_of_not_mem hl, List.map_cons]

theorem stringSplit_of_not_mem (hne : s ≠ "") (h : d ∉ s.toList) : stringSplit s d = [s] := by
  have hlist : s.toList ≠ [] := fun heq => hne (String.toList_eq_nil_iff.1 heq)
  have hhead : s.toList.head? ≠ some d := fun heq => h (List.mem_of_mem_head? heq)
  rw [stringSplit_of_ne (by rwa [dropWhile_of_head_ne hhead]), dropWhile_of_head_ne hhead, List.splitOn_eq_singleton h,
    List.map_singleton, String.ofList_toList]

end Split

/-! ### The code -/

namespace ParseUrl

abbrev DEFAULT_HTTP_PORT : Int := 80
abbrev DEFAULT_HTTPS_PORT : Int := 443

def isxdigit (c : Char) : Bool := c.isDigit || ('a' ≤ c && c ≤ 'f') || ('A' ≤ c && c ≤ 'F')

/-- A group of an address and the colon behind it. -/
def checkGroupIPv6 (s : List Char) : Bool :=
  if s = [] then false
  else if s = [':'] then true
  else if (String.ofList s).utf8ByteSize > 5 then false
  else s.dropLast.all isxdigit

/-- The groups are the parts that end with a colon; what stands behind the last colon is not looked at. -/
def isIPv6 (s : List Char) : Bool :=
  let groups := (s.splitOn ':').dropLast
  (groups.all fun group => checkGroupIPv6 (group ++ [':'])) && (1 < groups.length && groups.length < 8)

/-- What stands before the last colon and behind it, if the part up to there is an address. -/
def getIPv6Port (s : String) : Option (String × String) :=
  let res := (s.toList.reverse.dropWhile (· ≠ ':')).reverse
  if res = [] then none
  else
    let outPort := (s.toList.reverse.takeWhile (· ≠ ':')).reverse
    if isIPv6 res then some (String.ofList res.dropLast, String.ofList outPort) else none

structure Url where
  host : String
  port : Int
  path : String
  protocol : String

/-- What is known of the url with its authority: nothing if a token outside of a vector is read, and no url if
`false` is returned. -/
def parseAuthority (protocol path authority : String) : Option (Option Url) :=
  match getIPv6Port authority with
  | some (auxIp, auxPort) => some (some { host := auxIp, port := atoi auxPort.toList, path, protocol })
  | none =>
    let hostTokens := stringSplit authority ':'
    if hostTokens.length > 2 then some none
    else
      match hostTokens with
      | [] => none
      | [host] =>
        some (some { host, port := if protocol = "https:" then DEFAULT_HTTPS_PORT else DEFAULT_HTTP_PORT, path, protocol })
      | host :: port :: _ =>
        if port = "" then some none else some (some { host, port := atoi port.toList, path, protocol })

def parseUrl (url : String) : Option (Option Url) :=
  if url = "" then some none
  else
    match stringSplit (cString url) '/' with
    | protocol :: _ :: authority :: rest =>
      if protocol ≠ "https:" ∧ protocol ≠ "http:" then some none
      else if authority = "" then some none
      else
        let path := String.join (rest.map ("/" ++ ·))
        parseAuthority protocol (if path = "" then "/" else path) authority
    -- the scheme or the host is missing
    | _ => some none

/-! ### What is meant -/

/-- A port is a number of digits that an `int` holds. -/
def IsPort (text : String) (port : Int) : Prop :=
  text ≠ "" ∧ Digits text.toList ∧ port = natOf text.toList

/-- The authority is a host, with the port of the scheme, or a host and a port. -/
def AuthorityOf (authority : String) (u : Url) : Prop :=
  u.host ≠ "" ∧
    ((authority = u.host ∧ u.port = if u.protocol = "https:" then 443 else 80) ∨
      ∃ port, authority = u.host ++ ":" ++ port ∧ IsPort port u.port)

/-- The parts make up the url. -/
def PartsOf (url : String) (u : Url) : Prop :=
  ∃ authority rest : String, url = u.protocol ++ "//" ++ authority ++ rest ∧ '/' ∉ authority.toList ∧
    AuthorityOf authority u ∧ u.path = if rest = "" then "/" else rest

/-- No token outside is read, and the parts that are returned make up the url. -/
def ParsesUrl (url : String) : Prop :=
  parseUrl url ≠ none ∧ ∀ u, parseUrl url = some (some u) → PartsOf url u

/-! ### When it is so -/

/-- An authority that the code refuses: it is no address with a port, and has more than two parts or an empty port. -/
def Refused (authority : String) : Prop :=
  getIPv6Port authority = none ∧
    (2 < (stringSplit authority ':').length ∨ ∃ host, stringSplit authority ':' = [host, ""])

def SmallNumber (text : String) : Prop := text ≠ "" ∧ Digits text.toList ∧ natOf text.toList < 2 ^ 31

/-- The port is a number, and no colon stands before the host. -/
structure RightAuthority (authority : String) : Prop where
  address : ∀ host port, getIPv6Port authority = some (host, port) → SmallNumber port
  host : getIPv6Port authority = none → authority.toList.head? ≠ some ':'
  port : getIPv6Port authority = none → ∀ host port, stringSplit authority ':' = [host, port] → SmallNumber port

theorem getIPv6Port_spec {s host port : String} (h : getIPv6Port s = some (host, port)) :
    s = host ++ ":" ++ port ∧ host ≠ "" := by
  unfold getIPv6Port at h
  dsimp only at h
  split at h
  · cases h
  · rename_i hres
    split at h
    · rename_i haddress
      have hhost : String.ofList (s.toList.reverse.dropWhile (· ≠ ':')).reverse.dropLast = host :=
        congrArg Prod.fst (Option.some.inj h)
      have hport : String.ofList (s.toList.reverse.takeWhile (· ≠ ':')).reverse = port :=
        congrArg Prod.snd (Option.some.inj h)
      cases hdrop : s.toList.reverse.dropWhile (· ≠ ':') with
      | nil =>
        rw [hdrop] at hres
        exact absurd rfl hres
      | cons c front =>
        have hc : c = ':' := by
          have hnot := List.head?_dropWhile_not (· ≠ ':') s.toList.reverse
          rw [hdrop] at hnot
          simpa using hnot
        rw [hdrop] at hhost haddress
        rw [List.reverse_cons, List.dropLast_concat] at hhost
        refine ⟨?_, ?_⟩
        · have hsplit := List.takeWhile_append_dropWhile (p := (· ≠ ':')) (l := s.toList.reverse)
          rw [hdrop, hc] at hsplit
          have hs : s.toList = front.reverse ++ ':' :: (s.toList.reverse.takeWhile (· ≠ ':')).reverse := by
            generalize s.toList.reverse.takeWhile (· ≠ ':') = back at hsplit
            rw [← List.reverse_reverse s.toList, ← hsplit]
            simp
          apply String.toList_inj.1
          rw [hs, ← hhost, ← hport]
          simp
        · rintro rfl
          have hfront : front = [] := by
            have := congrArg String.toList hhost
            simpa using this
          rw [hfront, hc] at haddress
          revert haddress
          decide
    · cases h

theorem SmallNumber.isPort {text : String} (h : SmallNumber text) : IsPort text (atoi text.toList) :=
  ⟨h.1, h.2.1, atoi_of_lt h.2.1 h.2.2⟩

theorem IsPort.smallNumber {text : String} {s : List Char} (h : IsPort text (atoi s)) : SmallNumber text := by
  refine ⟨h.1, h.2.1, ?_⟩
  have := atoi_lt s
  rw [h.2.2] at this
  omega

theorem head_ne_of_host {authority host rest : String} (hne : host ≠ "") (hcolon : ':' ∉ host.toList)
    (h : authority = host ++ rest) : authority.toList.head? ≠ some ':' := by
  have hlist : host.toList ≠ [] := fun heq => hne (String.toList_eq_nil_iff.1 heq)
  rw [h, String.toList_append, List.head?_append_of_ne_nil _ hlist]
  exact fun heq => hcolon (List.mem_of_mem_head? heq)

/-- The parts of an authority without a colon in front. -/
theorem authority_of_parts {authority host : String} (hne : authority ≠ "") (hhead : authority.toList.head? ≠ some ':')
    {ports : List String} (hparts : stringSplit authority ':' = host :: ports) :
    authority.toList = host.toList ++ ports.flatMap (fun port => ':' :: port.toList) ∧ host ≠ "" := by
  have hjoin := flatMap_stringSplit hne hhead
  rw [hparts, List.flatMap_cons, List.cons_append, List.cons.injEq] at hjoin
  refine ⟨hjoin.2.symm, ?_⟩
  rintro rfl
  have hlist : authority.toList ≠ [] := fun heq => hne (String.toList_eq_nil_iff.1 heq)
  cases ports with
  | nil => exact hlist (by rw [← hjoin.2]; rfl)
  | cons port ports =>
    rw [← hjoin.2] at hhead
    exact hhead rfl

theorem parseAuthority_of_right {authority : String} (protocol path : String) (hne : authority ≠ "")
    (hnot : ¬Refused authority) (h : RightAuthority authority) :
    ∃ u : Url, parseAuthority protocol path authority = some (some u) ∧ u.protocol = protocol ∧ u.path = path ∧
      AuthorityOf authority u := by
  unfold parseAuthority
  cases haddress : getIPv6Port authority with
  | some parts =>
    obtain ⟨host, port⟩ := parts
    obtain ⟨hsplit, hhost⟩ := getIPv6Port_spec haddress
    exact ⟨_, rfl, rfl, rfl, hhost, .inr ⟨port, hsplit, (h.address host port haddress).isPort⟩⟩
  | none =>
    have hhead := h.host haddress
    have hport := h.port haddress
    have hfew : ¬2 < (stringSplit authority ':').length := fun hmany => hnot ⟨haddress, .inl hmany⟩
    have hempty : ∀ host, stringSplit authority ':' ≠ [host, ""] := fun host heq => hnot ⟨haddress, .inr ⟨host, heq⟩⟩
    dsimp only
    rw [if_neg hfew]
    cases hparts : stringSplit authority ':' with
    | nil =>
      rw [stringSplit_eq_nil_iff] at hparts
      cases hlist : authority.toList with
      | nil => exact absurd (String.toList_eq_nil_iff.1 hlist) hne
      | cons c l =>
        rw [hlist] at hparts hhead
        exact absurd (congrArg some (hparts c List.mem_cons_self)) hhead
    | cons host ports =>
      obtain ⟨hjoin, hhost⟩ := authority_of_parts hne hhead hparts
      rcases ports with _ | ⟨port, _ | ⟨third, ports⟩⟩
      · refine ⟨_, rfl, rfl, rfl, hhost, .inl ⟨String.toList_inj.1 ?_, rfl⟩⟩
        rw [hjoin]
        simp
      · have hsome : port ≠ "" := by
          rintro rfl
          exact hempty host hparts
        dsimp only
        rw [if_neg hsome]
        refine ⟨_, rfl, rfl, rfl, hhost, .inr ⟨port, String.toList_inj.1 ?_, (hport host port hparts).isPort⟩⟩
        rw [hjoin]
        simp
      · rw [hparts] at hfew
        simp at hfew

theorem right_of_parseAuthority {protocol path authority : String} (hnot : ¬Refused authority)
    (hinside : parseAuthority protocol path authority ≠ none)
    (h : ∀ u, parseAuthority protocol path authority = some (some u) → AuthorityOf authority u) :
    RightAuthority authority := by
  unfold parseAuthority at hinside h
  cases haddress : getIPv6Port authority with
  | some parts =>
    obtain ⟨host, port⟩ := parts
    rw [haddress] at h
    obtain ⟨hsplit, hhost⟩ := getIPv6Port_spec haddress
    have hsome : getIPv6Port authority ≠ none := by simp [haddress]
    refine ⟨?_, fun hnone => absurd hnone hsome, fun hnone => absurd hnone hsome⟩
    intro host' port' heq
    rw [haddress] at heq
    cases heq
    obtain ⟨-, ⟨hwhole, -⟩ | ⟨port', hport', hisPort⟩⟩ := h _ rfl
    · -- the host is shorter than the authority
      have hlength := congrArg (fun s : String => s.toList.length) (hsplit.symm.trans hwhole)
      simp at hlength
    · have hports : host.toList ++ ':' :: port.toList = host.toList ++ ':' :: port'.toList := by
        have := congrArg String.toList (hsplit.symm.trans hport')
        simpa using this
      have hports := List.cons.inj (List.append_cancel_left hports)
      rw [String.toList_inj.1 hports.2]
      exact hisPort.smallNumber
  | none =>
    rw [haddress] at hinside h
    have hfew : ¬2 < (stringSplit authority ':').length := fun hmany => hnot ⟨haddress, .inl hmany⟩
    have hempty : ∀ host, stringSplit authority ':' ≠ [host, ""] := fun host heq => hnot ⟨haddress, .inr ⟨host, heq⟩⟩
    dsimp only at hinside h
    rw [if_neg hfew] at hinside h
    have hnone : ∀ parts, getIPv6Port authority ≠ some parts := by simp [haddress]
    refine ⟨fun host port heq => absurd heq (hnone _), fun _ => ?_, fun _ => ?_⟩
    · cases hparts : stringSplit authority ':' with
      | nil =>
        rw [hparts] at hinside
        exact absurd rfl hinside
      | cons host ports =>
        have hcolon : ':' ∉ host.toList := not_mem_of_mem_stringSplit (hparts ▸ List.mem_cons_self)
        rw [hparts] at h
        rcases ports with _ | ⟨port, _ | ⟨third, ports⟩⟩
        · obtain ⟨hhost, ⟨hwhole, -⟩ | ⟨port', hport', -⟩⟩ := h _ rfl
          · exact @head_ne_of_host _ _ "" hhost hcolon (by rw [hwhole]; simp)
          · exact head_ne_of_host hhost hcolon (by rw [hport', String.append_assoc])
        · have hsome : port ≠ "" := by
            rintro rfl
            exact hempty host hparts
          dsimp only at h
          rw [if_neg hsome] at h
          obtain ⟨hhost, ⟨hwhole, -⟩ | ⟨port', hport', -⟩⟩ := h _ rfl
          · exact @head_ne_of_host _ _ "" hhost hcolon (by rw [hwhole]; simp)
          · exact head_ne_of_host hhost hcolon (by rw [hport', String.append_assoc])
        · rw [hparts] at hfew
          simp at hfew
    · intro host port hparts
      have hcolon : ':' ∉ host.toList := not_mem_of_mem_stringSplit (hparts ▸ List.mem_cons_self)
      have hsome : port ≠ "" := by
        rintro rfl
        exact hempty host hparts
      rw [hparts] at h
      dsimp only at h
      rw [if_neg hsome] at h
      obtain ⟨hhost, ⟨hwhole, -⟩ | ⟨port', hport', hisPort⟩⟩ := h _ rfl
      · have hwhole : authority = host := hwhole
        rw [hwhole, stringSplit_of_not_mem hhost hcolon] at hparts
        simp at hparts
      · have hlist : host.toList ≠ [] := fun heq => hhost (String.toList_eq_nil_iff.1 heq)
        have hdigits : ':' ∉ port'.toList := fun hmem => absurd (hisPort.2.1 _ hmem) (by decide)
        have hsplit := @stringSplit_append ':' authority host.toList port'.toList hlist hcolon (by rw [hport']; simp)
        rw [hparts, List.splitOn_eq_singleton hdigits] at hsplit
        have hport : port = port' := by simpa using hsplit
        rw [hport]
        exact hisPort.smallNumber

/-- What `parseAuthority` returns in which case. -/
inductive Parsed (protocol path authority : String) : Option (Option Url) → Prop
  | address {host port : String} : getIPv6Port authority = some (host, port) →
    Parsed protocol path authority (some (some { host, port := atoi port.toList, path, protocol }))
  | refused : Refused authority → Parsed protocol path authority (some none)
  | nothing : stringSplit authority ':' = [] → Parsed protocol path authority none
  | host {host : String} : stringSplit authority ':' = [host] →
    Parsed protocol path authority
      (some (some { host, port := if protocol = "https:" then DEFAULT_HTTPS_PORT else DEFAULT_HTTP_PORT, path, protocol }))
  | hostAndPort {host port : String} : stringSplit authority ':' = [host, port] →
    Parsed protocol path authority (some (some { host, port := atoi port.toList, path, protocol }))

theorem parsed_parseAuthority (protocol path authority : String) :
    Parsed protocol path authority (parseAuthority protocol path authority) := by
  unfold parseAuthority
  split
  · rename_i host port haddress
    exact .address haddress
  · rename_i haddress
    dsimp only
    split
    · rename_i hmany
      exact .refused ⟨haddress, .inl hmany⟩
    · rename_i hfew
      split
      · rename_i hparts
        exact .nothing hparts
      · rename_i host hparts
        exact .host hparts
      · rename_i host port ports hparts
        have hports : ports = [] := by
          rw [hparts, List.length_cons, List.length_cons] at hfew
          exact List.length_eq_zero_iff.1 (by omega)
        rw [hports] at hparts
        split
        · rename_i hempty
          rw [hempty] at hparts
          exact .refused ⟨haddress, .inr ⟨host, hparts⟩⟩
        · exact .hostAndPort hparts

theorem parseAuthority_of_refused {protocol path authority : String} (h : Refused authority) :
    parseAuthority protocol path authority = some none := by
  obtain ⟨haddress, hmany | ⟨host, hparts⟩⟩ := h
  · simp only [parseAuthority, haddress, if_pos hmany]
  · simp [parseAuthority, haddress, hparts]

theorem parseAuthority_url {protocol path authority : String} {u : Url}
    (h : parseAuthority protocol path authority = some (some u)) : u.protocol = protocol ∧ u.path = path := by
  have hparsed := parsed_parseAuthority protocol path authority
  rw [h] at hparsed
  cases hparsed <;> exact ⟨rfl, rfl⟩

/-- The path that the tokens behind the authority make up. -/
def pathOf (rest : List String) : String :=
  let path := String.join (rest.map ("/" ++ ·))
  if path = "" then "/" else path

theorem toList_join (rest : List String) :
    (String.join (rest.map ("/" ++ ·))).toList = rest.flatMap fun part => '/' :: part.toList := by
  simp [String.toList_join, List.flatMap_def, Function.comp_def]

def IsScheme (protocol : String) : Prop := protocol = "http:" ∨ protocol = "https:"

theorem parseUrl_of_tokens {url protocol second authority : String} {rest : List String} (hne : url ≠ "")
    (htokens : stringSplit (cString url) '/' = protocol :: second :: authority :: rest) (hscheme : IsScheme protocol)
    (hauthority : authority ≠ "") : parseUrl url = parseAuthority protocol (pathOf rest) authority := by
  have hgiven : ¬(protocol ≠ "https:" ∧ protocol ≠ "http:") := by
    rintro ⟨hhttps, hhttp⟩
    exact hscheme.elim hhttp hhttps
  rw [parseUrl, if_neg hne, htokens]
  simp only [if_neg hgiven, if_neg hauthority]
  rfl

/-- An url that is not refused at once has a scheme and an authority. -/
theorem tokens_of_parseUrl {url : String} (h : parseUrl url ≠ some none) :
    url ≠ "" ∧ ∃ protocol second authority rest, stringSplit (cString url) '/' = protocol :: second :: authority :: rest ∧
      IsScheme protocol ∧ authority ≠ "" := by
  unfold parseUrl at h
  split at h
  · exact absurd rfl h
  · rename_i hne
    refine ⟨hne, ?_⟩
    split at h
    · rename_i protocol second authority rest htokens
      split at h
      · exact absurd rfl h
      · rename_i hscheme
        split at h
        · exact absurd rfl h
        · rename_i hauthority
          refine ⟨protocol, second, authority, rest, htokens, ?_, hauthority⟩
          by_contra hnot
          exact hscheme ⟨fun heq => hnot (.inr heq), fun heq => hnot (.inl heq)⟩
    · exact absurd rfl h

theorem scheme_toList {protocol : String} (h : IsScheme protocol) :
    '/' ∉ protocol.toList ∧ protocol.toList ≠ [] ∧ '\x00' ∉ protocol.toList := by
  rcases h with rfl | rfl <;> decide

/-- The scheme and the authority stand where they should. -/
structure RightUrl (url : String) (second authority : String) : Prop where
  zero : cString url = url
  front : url.toList.head? ≠ some '/'
  second : second = ""
  authority : RightAuthority authority

theorem partsOf_of_right {url protocol second authority : String} {rest : List String} (hne : url ≠ "")
    (htokens : stringSplit (cString url) '/' = protocol :: second :: authority :: rest) (h : RightUrl url second authority)
    {u : Url} (hprotocol : u.protocol = protocol) (hpath : u.path = pathOf rest) (hauthority : AuthorityOf authority u) :
    PartsOf url u := by
  rw [h.zero] at htokens
  have hmem : authority ∈ stringSplit url '/' := by simp [htokens]
  have hslash : '/' ∉ authority.toList := not_mem_of_mem_stringSplit hmem
  have hjoin := flatMap_stringSplit hne h.front
  rw [htokens, h.second] at hjoin
  refine ⟨authority, String.join (rest.map ("/" ++ ·)), ?_, hslash, hauthority, hpath⟩
  apply String.toList_inj.1
  simp only [List.flatMap_cons, List.cons_append, List.cons.injEq, true_and, String.toList_empty, List.nil_append] at hjoin
  simp only [String.toList_append, toList_join, hprotocol, ← hjoin]
  simp

/-- What the tokens are made of has no zero character. -/
theorem zero_not_mem_cString (url : String) : '\x00' ∉ (cString url).toList := by
  rw [cString, String.toList_ofList]
  intro hmem
  simpa using List.mem_takeWhile_imp hmem

theorem refused_of_parseAuthority {protocol path authority : String}
    (h : parseAuthority protocol path authority = some none) : Refused authority := by
  have hparsed := parsed_parseAuthority protocol path authority
  rw [h] at hparsed
  cases hparsed with
  | refused hrefused => exact hrefused

theorem mem_authority_of_mem_host {protocol path authority : String} {u : Url}
    (h : parseAuthority protocol path authority = some (some u)) {c : Char} (hc : c ∈ u.host.toList) :
    c = ':' ∨ c ∈ authority.toList := by
  have hparsed := parsed_parseAuthority protocol path authority
  rw [h] at hparsed
  cases hparsed with
  | address haddress =>
    rw [(getIPv6Port_spec haddress).1]
    exact .inr (by simp [hc])
  | host hparts => exact mem_of_mem_stringSplit (hparts ▸ List.mem_cons_self) hc
  | hostAndPort hparts => exact mem_of_mem_stringSplit (hparts ▸ List.mem_cons_self) hc

theorem pathOf_eq (rest : List String) : ∃ l, (pathOf rest).toList = '/' :: l := by
  unfold pathOf
  dsimp only
  split
  · exact ⟨[], rfl⟩
  · rw [toList_join]
    cases rest with
    | nil => contradiction
    | cons part rest => exact ⟨_, rfl⟩

theorem zero_not_mem_pathOf {rest : List String} (h : ∀ part ∈ rest, '\x00' ∉ part.toList) :
    '\x00' ∉ (pathOf rest).toList := by
  unfold pathOf
  dsimp only
  split
  · decide
  · rw [toList_join]
    intro hmem
    obtain ⟨part, hpart, hmem⟩ := List.mem_flatMap.1 hmem
    rcases List.mem_cons.1 hmem with hmem | hmem
    · cases hmem
    · exact h part hpart hmem

/-- The tokens of an url that is made up of its parts. -/
theorem right_of_partsOf {url protocol second authority : String} {rest : List String}
    (htokens : stringSplit (cString url) '/' = protocol :: second :: authority :: rest) (hscheme : IsScheme protocol)
    {u : Url} (hu : parseAuthority protocol (pathOf rest) authority = some (some u)) (h : PartsOf url u) :
    cString url = url ∧ url.toList.head? ≠ some '/' ∧ second = "" ∧ AuthorityOf authority u := by
  obtain ⟨authority', rest', hurl, hslash, hauthority, hpath⟩ := h
  obtain ⟨hprotocol, hpath'⟩ := parseAuthority_url hu
  obtain ⟨hnoSlash, hprotocolNe, hprotocolZero⟩ := scheme_toList hscheme
  rw [hprotocol] at hurl
  rw [hpath'] at hpath
  have hparts : ∀ part ∈ protocol :: second :: authority :: rest, '\x00' ∉ part.toList := by
    intro part hpart hmem
    rw [← htokens] at hpart
    rcases mem_of_mem_stringSplit hpart hmem with hmem | hmem
    · cases hmem
    · exact zero_not_mem_cString url hmem
  have hhost : '\x00' ∉ u.host.toList := by
    intro hmem
    rcases mem_authority_of_mem_host hu hmem with hmem | hmem
    · cases hmem
    · exact hparts authority (by simp) hmem
  have hauthorityZero : '\x00' ∉ authority'.toList := by
    obtain ⟨-, ⟨hwhole, -⟩ | ⟨port, hport, hisPort⟩⟩ := hauthority
    · rwa [hwhole]
    · have hdigits : '\x00' ∉ port.toList := fun hmem => absurd (hisPort.2.1 _ hmem) (by decide)
      rw [hport]
      simp [hhost, hdigits]
  have hrest : rest' = "" ∨ rest' = pathOf rest := by
    by_cases hempty : rest' = ""
    · exact .inl hempty
    · rw [if_neg hempty] at hpath
      exact .inr hpath.symm
  have hrestZero : '\x00' ∉ rest'.toList := by
    rcases hrest with hrest | hrest
    · simp [hrest]
    · rw [hrest]
      exact zero_not_mem_pathOf fun part hpart => hparts part (by simp [hpart])
  have hlist : url.toList = protocol.toList ++ '/' :: ([] ++ '/' :: (authority'.toList ++ rest'.toList)) := by
    rw [hurl]
    simp
  have hzero : cString url = url := by
    rw [cString_eq_self_iff, hlist]
    simp [hprotocolZero, hauthorityZero, hrestZero]
  have htail : ∃ parts, (authority'.toList ++ rest'.toList).splitOn '/' = authority'.toList :: parts := by
    rcases hrest with hrest | hrest
    · rw [hrest]
      exact ⟨[], by rw [String.toList_empty, List.append_nil, List.splitOn_eq_singleton hslash]⟩
    · obtain ⟨l, hl⟩ := pathOf_eq rest
      rw [hrest, hl]
      exact ⟨_, List.splitOn_append_cons_self_of_not_mem hslash _⟩
  obtain ⟨parts, hparts'⟩ := htail
  have hsplit := stringSplit_append hprotocolNe hnoSlash hlist
  rw [hzero] at htokens
  rw [htokens, List.splitOn_append_cons_self_of_not_mem (by simp), hparts', List.map_cons, List.map_cons] at hsplit
  simp only [List.cons.injEq, String.ofList_toList, String.ofList_nil] at hsplit
  refine ⟨hzero, ?_, hsplit.2.1, hsplit.2.2.1 ▸ hauthority⟩
  rw [hlist, List.head?_append_of_ne_nil _ hprotocolNe]
  exact fun heq => hnoSlash (List.mem_of_mem_head? heq)

/-- The url is parsed rightly if and only if its scheme and its authority stand where they should, unless the url is
refused for one of them. -/
theorem parseUrl_iff (url : String) :
    ParsesUrl url ↔
      ∀ protocol second authority rest, stringSplit (cString url) '/' = protocol :: second :: authority :: rest →
        IsScheme protocol → authority ≠ "" → ¬Refused authority → RightUrl url second authority := by
  constructor
  · rintro ⟨hinside, hparts⟩ protocol second authority rest htokens hscheme hauthority hnot
    have hne : url ≠ "" := by
      rintro rfl
      cases htokens
    rw [parseUrl_of_tokens hne htokens hscheme hauthority] at hinside hparts
    have hright := fun u hu => right_of_partsOf htokens hscheme hu (hparts u hu)
    cases hresult : parseAuthority protocol (pathOf rest) authority with
    | none => exact absurd hresult hinside
    | some result =>
      cases result with
      | none => exact absurd (refused_of_parseAuthority hresult) hnot
      | some u =>
        obtain ⟨hzero, hfront, hsecond, -⟩ := hright u hresult
        exact ⟨hzero, hfront, hsecond, right_of_parseAuthority hnot hinside fun u hu => (hright u hu).2.2.2⟩
  · intro hright
    by_cases hnone : parseUrl url = some none
    · rw [ParsesUrl, hnone]
      exact ⟨by simp, by simp⟩
    · obtain ⟨hne, protocol, second, authority, rest, htokens, hscheme, hauthority⟩ := tokens_of_parseUrl hnone
      have hresult := parseUrl_of_tokens hne htokens hscheme hauthority
      have hnot : ¬Refused authority := by
        intro hrefused
        exact hnone (hresult.trans (parseAuthority_of_refused hrefused))
      have hright := hright protocol second authority rest htokens hscheme hauthority hnot
      obtain ⟨u, hu, hprotocol, hpath, hof⟩ :=
        parseAuthority_of_right protocol (pathOf rest) hauthority hnot hright.authority
      rw [ParsesUrl, hresult, hu]
      refine ⟨by simp, ?_⟩
      rintro u' ⟨⟩
      exact partsOf_of_right hne htokens hright hprotocol hpath hof

/-- The authority is a colon, and has no token. -/
theorem colon_read_outside : ¬ParsesUrl "http://:" := by
  rintro ⟨hinside, -⟩
  exact hinside (by decide +kernel)

/-- A host without a port. -/
example : (parseUrl "https://orion/v2").map (Option.map Url.port) = some (some 443) := by decide +kernel

end ParseUrl

end OrionBroker
