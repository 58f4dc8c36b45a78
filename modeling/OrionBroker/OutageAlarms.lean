import OrionBroker.Alarms
import OrionBroker.ParseSubscription

/-!
# Alarms of notifications that cannot be sent (`httpRequestSend.cpp`, `QueueWorkers.cpp`, `senderThread.cpp`)

A notification that cannot be sent raises an alarm, and the next one that is sent releases it.  The key of an alarm is a
url.  `httpRequestSendWithCurl` makes it of the address it contacts, with brackets round an IPv6 address, a slash before
the resource and, with rush, the host and port of the relay; the senders make it of the parameters as they are.  The
alarm ends with the outage if and only if the two are the same (`outage_ends_iff`).
-/

namespace OrionBroker.OutageAlarms

open Alarms (AlarmManager Pc)

/-! ### The alarms, one call after the other -/

/-- `notificationV`: how often the alarm of each url was raised. -/
abbrev NotificationV := List (String × Int)

def notificationError (url : String) (alarms : NotificationV) : NotificationV :=
  if url ∈ alarms.map Prod.fst then KeyedList.modify Prod.fst url (fun x => (x.1, x.2 + 1)) alarms
  else KeyedList.upsert Prod.fst url (fun x => (x.1, 1)) (url, 1) alarms

def notificationErrorReset (url : String) (alarms : NotificationV) : NotificationV :=
  if url ∈ alarms.map Prod.fst then alarms.eraseP fun x => x.1 = url else alarms

/-- The turns of a call that no other thread comes between, at most `fuel` of them. -/
def alone : Nat → Pc → AlarmManager → AlarmManager
  | 0, _, s => s
  | fuel + 1, pc, s =>
    match Alarms.next pc s with
    | some (pc, s) => alone fuel pc s
    | none => s

/-- A call of `notificationError` takes five turns, in which the map changes as `notificationError` says. -/
theorem alone_notificationError {s : AlarmManager} (hsem : 0 < s.sem) (url : String) :
    (alone 5 (.take .notification false url) s).notification.alarms = notificationError url s.notification.alarms := by
  unfold notificationError
  by_cases h : url ∈ s.notification.alarms.map Prod.fst
  · simp [alone, Alarms.next, AlarmManager.map, AlarmManager.update, hsem, h]
  · simp [alone, Alarms.next, AlarmManager.map, AlarmManager.update, hsem, h]

theorem alone_notificationErrorReset {s : AlarmManager} (hsem : 0 < s.sem) (url : String) :
    (alone 5 (.take .notification true url) s).notification.alarms =
      notificationErrorReset url s.notification.alarms := by
  unfold notificationErrorReset
  by_cases h : url ∈ s.notification.alarms.map Prod.fst
  · simp [alone, Alarms.next, AlarmManager.map, AlarmManager.update, hsem, h]
  · simp [alone, Alarms.next, AlarmManager.map, AlarmManager.update, hsem, h]

/-- No alarm is active, or the one of the url. -/
def OnlyAlarm (url : String) (alarms : NotificationV) : Prop := alarms = [] ∨ ∃ count, alarms = [(url, count)]

theorem notificationError_onlyAlarm {url : String} {alarms : NotificationV} (h : OnlyAlarm url alarms) :
    ∃ count, notificationError url alarms = [(url, count)] := by
  rcases h with rfl | ⟨count, rfl⟩
  · exact ⟨1, rfl⟩
  · exact ⟨count + 1, by simp [notificationError, KeyedList.modify]⟩

theorem notificationErrorReset_onlyAlarm {url : String} {alarms : NotificationV} (h : OnlyAlarm url alarms) :
    notificationErrorReset url alarms = [] := by
  rcases h with rfl | ⟨count, rfl⟩
  · rfl
  · simp [notificationErrorReset]

/-! ### The senders -/

/-- How the broker was started, and the versions that it tells in its requests. -/
structure Broker where
  rushHost : String
  rushPort : UInt16
  version : String
  curlVersion : String

/-- The fields of `SenderThreadParams` that say where a notification goes. -/
structure Endpoint where
  ip : String
  port : UInt16
  resource : String

/-- The other fields of `SenderThreadParams` that the request is made of. -/
structure Message where
  protocol : String
  verb : String
  tenant : String
  servicePath : String
  xauthToken : String
  content_type : String
  content : String
  renderFormat : String
  fiwareCorrelator : String

structure SenderThreadParams extends Endpoint, Message

/-- An IPv6 address has between two and seven colons. -/
def isIPv6 (ip : String) : Bool :=
  let groups := (ip.toList.splitOn ':').dropLast
  groups.all checkGroupIPv6 && decide (1 < groups.length ∧ groups.length < 8)

/-- Whether the request goes to the relay. -/
def rushUsed (b : Broker) (useRush : Bool) : Bool := useRush && decide (b.rushPort ≠ 0 ∧ b.rushHost ≠ "")

/-- The host and the port that the request is sent to. -/
def contacted (b : Broker) (useRush : Bool) (p : Endpoint) : String × UInt16 :=
  if rushUsed b useRush then (b.rushHost, b.rushPort) else (p.ip, p.port)

/-- The host of a url, an IPv6 address in brackets. -/
def bracketed (ip : String) : String := if isIPv6 ip then "[" ++ ip ++ "]" else ip

/-- The url that the request is sent to. -/
def sentUrl (b : Broker) (useRush : Bool) (p : Endpoint) : String :=
  let (ip, port) := contacted b useRush p
  bracketed ip ++ ":" ++ Nat.repr port.toNat ++ (if p.resource.toList.head? = some '/' then "" else "/") ++ p.resource

/-- The url that `workerFunc` and `startSenderThread` make of the parameters. -/
def paramsUrl (p : Endpoint) : String := p.ip ++ ":" ++ Nat.repr p.port.toNat ++ p.resource

/-- The length of a text that `snprintf` cuts to a buffer. -/
def snprintfLength (bufLen textLength : Nat) : Nat := min textLength (bufLen - 1)

/-- The length of a header that is sent only if it has a value. -/
def optionalHeader (header value : String) : Nat := if value = "" then 0 else header.utf8ByteSize + value.utf8ByteSize

def contentType (p : Message) : String :=
  if p.content_type = "application/json" then p.content_type ++ "; charset=utf-8" else p.content_type

/-- What the headers and the content of a request have in bytes. -/
def outgoingBytes (b : Broker) (useRush : Bool) (p : SenderThreadParams) : Nat :=
  let (ip, port) := contacted b useRush p.toEndpoint
  (if rushUsed b useRush then
    ("X-relayer-host: " ++ p.ip ++ ":" ++ Nat.repr p.port.toNat).utf8ByteSize +
      if p.protocol = "https:" then "X-relayer-protocol: https".utf8ByteSize else 0
  else 0) +
  (snprintfLength 256 (("User-Agent: orion/" ++ b.version ++ " libcurl/").utf8ByteSize +
    snprintfLength 128 b.curlVersion.utf8ByteSize) + 1) +
  (snprintfLength 256 ("Host: " ++ ip ++ ":" ++ Nat.repr port.toNat).utf8ByteSize + 1) +
  optionalHeader "fiware-service: " p.tenant +
  optionalHeader "Fiware-ServicePath: " p.servicePath +
  optionalHeader "X-Auth-Token: " p.xauthToken +
  "Accept: application/json".utf8ByteSize +
  8 +
  ((Nat.repr p.content.utf8ByteSize).utf8ByteSize + 16 + p.content.utf8ByteSize) +
  ((contentType p.toMessage).utf8ByteSize + 14) +
  ("Fiware-Correlator: " ++ p.fiwareCorrelator).utf8ByteSize +
  (if p.renderFormat ≠ "" ∧ p.renderFormat ≠ "JSON" ∧ p.renderFormat ≠ "legacy" then
    ("Ngsiv2-AttrsFormat: " ++ p.renderFormat).utf8ByteSize
  else 0)

/-- The bytes are counted in an `int`. -/
def outgoingMsgSize (b : Broker) (useRush : Bool) (p : SenderThreadParams) : Int :=
  Int.bmod (outgoingBytes b useRush p) (2 ^ 32)

abbrev MAX_DYN_MSG_SIZE : Int := 8 * 1024 * 1024

/-- What is returned and the alarms; `performed` is whether `curl_easy_perform` succeeds. -/
def httpRequestSendWithCurl (b : Broker) (useRush : Bool) (p : SenderThreadParams) (performed : Bool)
    (alarms : NotificationV) : Int × NotificationV :=
  if p.port = 0 then (-1, alarms)
  else if p.ip = "" then (-2, alarms)
  else if p.verb = "" then (-3, alarms)
  else if p.resource = "" then (-4, alarms)
  else if contentType p.toMessage = "" ∧ p.content ≠ "" then (-5, alarms)
  else if contentType p.toMessage ≠ "" ∧ p.content = "" then (-6, alarms)
  else if MAX_DYN_MSG_SIZE < outgoingMsgSize b useRush p then (-7, alarms)
  else if performed then (0, alarms)
  else (-9, notificationError (sentUrl b useRush p.toEndpoint) alarms)

/-- `curl` is whether there is a curl context for the destination. -/
def httpRequestSend (b : Broker) (useRush : Bool) (p : SenderThreadParams) (curl performed : Bool)
    (alarms : NotificationV) : Int × NotificationV :=
  if curl then httpRequestSendWithCurl b useRush p performed alarms else (-8, alarms)

/-- One turn of the loop of a queue worker; what the request returned, and the alarms. -/
def workerFunc (b : Broker) (p : SenderThreadParams) (performed : Bool) (alarms : NotificationV) : Int × NotificationV :=
  let (r, alarms) := httpRequestSendWithCurl b true p performed alarms
  if r = 0 then (r, notificationErrorReset (paramsUrl p.toEndpoint) alarms)
  else (r, notificationError (paramsUrl p.toEndpoint) alarms)

def startSenderThread (b : Broker) (p : SenderThreadParams) (curl performed : Bool) (alarms : NotificationV) :
    Int × NotificationV :=
  let (r, alarms) := httpRequestSend b true p curl performed alarms
  if r = 0 then (r, notificationErrorReset (paramsUrl p.toEndpoint) alarms) else (r, alarms)

/-! ### Sending to one destination -/

/-- Where notifications can go. -/
structure Destination extends Endpoint where
  ip_ne : ip ≠ ""
  port_ne : port ≠ 0
  resource_ne : resource ≠ ""

/-- A queue worker has a curl handle of its own, a sender thread gets one. -/
inductive Sender
  | worker
  | senderThread (curl : Bool)

structure Send where
  sender : Sender
  message : Message
  performed : Bool

def Destination.params (d : Destination) (m : Message) : SenderThreadParams := { d.toEndpoint, m with }

def send (b : Broker) (d : Destination) (s : Send) (alarms : NotificationV) : Int × NotificationV :=
  match s.sender with
  | .worker => workerFunc b (d.params s.message) s.performed alarms
  | .senderThread curl => startSenderThread b (d.params s.message) curl s.performed alarms

/-- The alarms after some sends; at the beginning there are none. -/
def alarmsAfter (b : Broker) (d : Destination) (sends : List Send) : NotificationV :=
  sends.foldl (fun alarms s => (send b d s alarms).2) []

/-- After each sequence of sends, a send that succeeds leaves no alarm, and one whose `curl_easy_perform` failed leaves
exactly one. -/
def OutageEnds (b : Broker) (d : Destination) : Prop :=
  ∀ (earlier : List Send) (s : Send),
    let (r, alarms) := send b d s (alarmsAfter b d earlier)
    (r = 0 → alarms = []) ∧ (r = -9 → alarms.length = 1)

/-- The resource begins with a slash, and the address that is contacted is written as in the parameters. -/
def SameKey (b : Broker) (d : Destination) : Prop :=
  d.resource.toList.head? = some '/' ∧
    bracketed (contacted b true d.toEndpoint).1 = d.ip ∧ (contacted b true d.toEndpoint).2 = d.port

/-! ### The two keys -/

private theorem split_first {a : Char} {l l' r r' : List Char} (h : l ++ a :: r = l' ++ a :: r') (hl : a ∉ l)
    (hl' : a ∉ l') : l = l' ∧ r = r' := by
  induction l generalizing l' with
  | nil =>
    cases l' with
    | nil => exact ⟨rfl, (List.cons.inj h).2⟩
    | cons c l' => exact absurd (List.mem_cons.2 (.inl (List.cons.inj h).1)) hl'
  | cons c l ih =>
    cases l' with
    | nil => exact absurd (List.mem_cons.2 (.inl (List.cons.inj h).1.symm)) hl
    | cons c' l' =>
      obtain ⟨rfl, htail⟩ := List.cons.inj h
      have hfirst := ih htail (fun hm => hl (List.mem_cons_of_mem _ hm)) fun hm => hl' (List.mem_cons_of_mem _ hm)
      exact ⟨congrArg (c :: ·) hfirst.1, hfirst.2⟩

/-- What is before the last colon and what is after it. -/
private theorem split_last {a : Char} {l l' r r' : List Char} (h : l ++ a :: r = l' ++ a :: r') (hr : a ∉ r)
    (hr' : a ∉ r') : l = l' ∧ r = r' := by
  have hreverse := congrArg List.reverse h
  simp only [List.reverse_append, List.reverse_cons, List.append_assoc, List.singleton_append] at hreverse
  obtain ⟨hright, hleft⟩ := split_first hreverse (by simpa using hr) (by simpa using hr')
  exact ⟨List.reverse_inj.1 hleft, List.reverse_inj.1 hright⟩

theorem not_mem_repr {n : Nat} {c : Char} (h : c.isDigit = false) : c ∉ (Nat.repr n).toList := by
  intro hc
  have hdigit : c.isDigit = true := by
    refine Nat.isDigit_of_mem_toDigits (b := 10) (n := n) (by decide) (by decide) ?_
    simpa [Nat.repr] using hc
  rw [h] at hdigit
  cases hdigit

/-- A host, a colon and a port are read back. -/
theorem host_port_inj {host host' : String} {port port' : UInt16}
    (h : host.toList ++ ':' :: (Nat.repr port.toNat).toList = host'.toList ++ ':' :: (Nat.repr port'.toNat).toList) :
    host = host' ∧ port = port' := by
  obtain ⟨hhost, hport⟩ := split_last h (not_mem_repr rfl) (not_mem_repr rfl)
  have hrepr : Nat.repr port.toNat = Nat.repr port'.toNat := String.toList_inj.1 hport
  exact ⟨String.toList_inj.1 hhost, UInt16.toNat_inj.1 (Nat.repr_injective hrepr)⟩

/-- What is contacted has the key that is made of the parameters. -/
theorem sentUrl_eq_iff (b : Broker) (d : Destination) :
    sentUrl b true d.toEndpoint = paramsUrl d.toEndpoint ↔ SameKey b d := by
  unfold sentUrl paramsUrl SameKey
  generalize contacted b true d.toEndpoint = address
  obtain ⟨ip, port⟩ := address
  by_cases hslash : d.resource.toList.head? = some '/'
  · simp only [hslash, if_true, String.append_empty, true_and]
    constructor
    · intro h
      have hlists := congrArg String.toList h
      simp only [String.toList_append, List.append_cancel_right_eq] at hlists
      exact host_port_inj (by simpa using hlists)
    · rintro ⟨hip, hport⟩
      rw [hip, hport]
  · simp only [hslash, if_false, false_and, iff_false]
    intro h
    -- the port of the parameters would end with a slash
    have hlists := congrArg String.toList h
    simp only [String.toList_append, List.append_cancel_right_eq] at hlists
    have hne : (Nat.repr d.port.toNat).toList ≠ [] := by simp
    have hlast : (Nat.repr d.port.toNat).toList.getLast? = some '/' := by
      rw [← List.getLast?_append_of_ne_nil (d.ip.toList ++ ":".toList) hne, ← hlists]
      exact List.getLast?_concat
    have hdigit : '/' ∈ (Nat.repr d.port.toNat).toList := List.mem_of_getLast? hlast
    exact not_mem_repr rfl hdigit

/-! ### The sends -/

/-- The requests that are performed: all checks are passed. -/
def Accepted (b : Broker) (p : SenderThreadParams) : Prop :=
  p.port ≠ 0 ∧ p.ip ≠ "" ∧ p.verb ≠ "" ∧ p.resource ≠ "" ∧ (contentType p.toMessage = "" ↔ p.content = "") ∧
    outgoingMsgSize b true p ≤ MAX_DYN_MSG_SIZE

/-- A request that is not accepted returns another code and changes no alarm. -/
theorem httpRequestSendWithCurl_cases (b : Broker) (p : SenderThreadParams) (performed : Bool) (alarms : NotificationV) :
    (Accepted b p ∧ httpRequestSendWithCurl b true p performed alarms =
      if performed then (0, alarms) else (-9, notificationError (sentUrl b true p.toEndpoint) alarms)) ∨
    (¬ Accepted b p ∧ ∃ r, r ≠ 0 ∧ r ≠ -9 ∧ httpRequestSendWithCurl b true p performed alarms = (r, alarms)) := by
  unfold httpRequestSendWithCurl Accepted
  by_cases hport : p.port = 0
  · exact Or.inr ⟨by simp [hport], -1, by decide, by decide, if_pos hport⟩
  by_cases hip : p.ip = ""
  · exact Or.inr ⟨by simp [hip], -2, by decide, by decide, by simp [hport, hip]⟩
  by_cases hverb : p.verb = ""
  · exact Or.inr ⟨by simp [hverb], -3, by decide, by decide, by simp [hport, hip, hverb]⟩
  by_cases hresource : p.resource = ""
  · exact Or.inr ⟨by simp [hresource], -4, by decide, by decide, by simp [hport, hip, hverb, hresource]⟩
  simp only [hport, hip, hverb, hresource, if_false, not_false_eq_true, ne_eq, true_and]
  by_cases hno : contentType p.toMessage = "" ∧ ¬ p.content = ""
  · exact Or.inr ⟨by simp [hno], -5, by decide, by decide, if_pos hno⟩
  by_cases hempty : ¬ contentType p.toMessage = "" ∧ p.content = ""
  · exact Or.inr ⟨by simp [hempty], -6, by decide, by decide, by rw [if_neg hno, if_pos hempty]⟩
  have hcontent : contentType p.toMessage = "" ↔ p.content = "" := by tauto
  rw [if_neg hno, if_neg hempty]
  by_cases hsize : MAX_DYN_MSG_SIZE < outgoingMsgSize b true p
  · exact Or.inr ⟨fun h => absurd hsize (not_lt.2 h.2), -7, by decide, by decide, if_pos hsize⟩
  · exact Or.inl ⟨⟨hcontent, not_lt.1 hsize⟩, if_neg hsize⟩

/-- The bytes of a tenant are added to the others. -/
theorem outgoingBytes_tenant (b : Broker) (p : SenderThreadParams) :
    ∃ others, ∀ tenant : String, tenant ≠ "" →
      outgoingBytes b true { p with tenant := tenant } = others + tenant.utf8ByteSize := by
  refine ⟨outgoingBytes b true { p with tenant := "" } + 16, fun tenant htenant => ?_⟩
  have hheader : optionalHeader "fiware-service: " tenant = 16 + tenant.utf8ByteSize := if_neg htenant
  have hnone : optionalHeader "fiware-service: " "" = 0 := rfl
  unfold outgoingBytes
  simp only [hheader, hnone, contentType]
  omega

theorem exists_utf8ByteSize (n : Nat) : ∃ text : String, text.utf8ByteSize = n := by
  induction n with
  | zero => exact ⟨"", rfl⟩
  | succ n ih =>
    obtain ⟨text, htext⟩ := ih
    refine ⟨text.push 'a', ?_⟩
    rw [String.utf8ByteSize_push, htext]
    rfl

/-- There is a message to every destination that is sent, since the bytes are counted modulo `2 ^ 32`. -/
theorem exists_accepted (b : Broker) (d : Destination) : ∃ m, Accepted b (d.params m) := by
  let plain : Message := ⟨"", "POST", "", "", "", "", "", "", ""⟩
  obtain ⟨others, hothers⟩ := outgoingBytes_tenant b (d.params plain)
  obtain ⟨tenant, htenant⟩ := exists_utf8ByteSize (2 ^ 32 * (others + 1) - others)
  have hne : tenant ≠ "" := by
    rintro rfl
    have hzero : 2 ^ 32 * (others + 1) - others = 0 := htenant.symm
    omega
  have hbytes : outgoingBytes b true (d.params { plain with tenant := tenant }) = 2 ^ 32 * (others + 1) := by
    have htotal := hothers tenant hne
    rw [htenant] at htotal
    exact htotal.trans (by omega)
  have hsize : outgoingMsgSize b true (d.params { plain with tenant := tenant }) = 0 := by
    unfold outgoingMsgSize
    rw [hbytes, Nat.cast_mul]
    exact Int.mul_bmod_right _ _
  refine ⟨{ plain with tenant := tenant }, d.port_ne, d.ip_ne, ?_, d.resource_ne, ?_, ?_⟩
  · show "POST" ≠ ""
    decide
  · exact iff_of_true rfl rfl
  · rw [hsize]
    decide

/-- What a request to a destination with one key leaves, where there was no other alarm before. -/
theorem httpRequestSendWithCurl_onlyAlarm {b : Broker} {p : SenderThreadParams} {own : String}
    (hown : sentUrl b true p.toEndpoint = own) (performed : Bool) {alarms : NotificationV} (h : OnlyAlarm own alarms) :
    let (r, alarms') := httpRequestSendWithCurl b true p performed alarms
    OnlyAlarm own alarms' ∧ (r = -9 → ∃ count, alarms' = [(own, count)]) := by
  rcases httpRequestSendWithCurl_cases b p performed alarms with ⟨-, heq⟩ | ⟨-, r, -, hr, heq⟩
  · rw [heq]
    cases performed with
    | true => exact ⟨h, fun hr => absurd hr (by decide)⟩
    | false =>
      have hraised := notificationError_onlyAlarm h
      rw [hown]
      exact ⟨Or.inr hraised, fun _ => hraised⟩
  · rw [heq]
    exact ⟨h, fun hr' => absurd hr' hr⟩

theorem httpRequestSend_onlyAlarm {b : Broker} {p : SenderThreadParams} {own : String}
    (hown : sentUrl b true p.toEndpoint = own) (curl performed : Bool) {alarms : NotificationV}
    (h : OnlyAlarm own alarms) :
    let (r, alarms') := httpRequestSend b true p curl performed alarms
    OnlyAlarm own alarms' ∧ (r = -9 → ∃ count, alarms' = [(own, count)]) := by
  cases curl with
  | true => exact httpRequestSendWithCurl_onlyAlarm hown performed h
  | false => exact ⟨h, fun hr => absurd hr (by decide)⟩

/-- One send keeps that there is no other alarm; the alarm ends with a send that succeeds. -/
theorem send_onlyAlarm {b : Broker} {d : Destination} (hkey : SameKey b d) (s : Send) {alarms : NotificationV}
    (h : OnlyAlarm (paramsUrl d.toEndpoint) alarms) :
    let (r, alarms') := send b d s alarms
    OnlyAlarm (paramsUrl d.toEndpoint) alarms' ∧ (r = 0 → alarms' = []) ∧
      (r = -9 → ∃ count, alarms' = [(paramsUrl d.toEndpoint, count)]) := by
  have hown : sentUrl b true d.toEndpoint = paramsUrl d.toEndpoint := (sentUrl_eq_iff b d).2 hkey
  obtain ⟨sender, message, performed⟩ := s
  cases sender with
  | worker =>
    obtain ⟨hrequest, -⟩ := httpRequestSendWithCurl_onlyAlarm (p := d.params message) hown performed h
    simp only [send, workerFunc]
    split
    · rename_i hr
      have hreset := notificationErrorReset_onlyAlarm hrequest
      exact ⟨Or.inl hreset, fun _ => hreset, fun hr' => absurd (hr.symm.trans hr') (by decide)⟩
    · rename_i hr
      have hraised := notificationError_onlyAlarm hrequest
      exact ⟨Or.inr hraised, fun hr' => absurd hr' hr, fun _ => hraised⟩
  | senderThread curl =>
    obtain ⟨hrequest, hfailed⟩ := httpRequestSend_onlyAlarm (p := d.params message) hown curl performed h
    simp only [send, startSenderThread]
    split
    · rename_i hr
      have hreset := notificationErrorReset_onlyAlarm hrequest
      exact ⟨Or.inl hreset, fun _ => hreset, fun hr' => absurd (hr.symm.trans hr') (by decide)⟩
    · rename_i hr
      exact ⟨hrequest, fun hr' => absurd hr' hr, hfailed⟩

theorem alarmsAfter_concat (b : Broker) (d : Destination) (sends : List Send) (s : Send) :
    alarmsAfter b d (sends ++ [s]) = (send b d s (alarmsAfter b d sends)).2 := List.foldl_concat _ _ _ _

theorem alarmsAfter_onlyAlarm {b : Broker} {d : Destination} (hkey : SameKey b d) (sends : List Send) :
    OnlyAlarm (paramsUrl d.toEndpoint) (alarmsAfter b d sends) := by
  induction sends using List.reverseRecOn with
  | nil => exact Or.inl rfl
  | append_singleton sends s ih =>
    rw [alarmsAfter_concat]
    exact (send_onlyAlarm hkey s ih).1

/-- A send that fails and one that succeeds, of a message that is accepted. -/
theorem retried_alarms {b : Broker} {d : Destination} {m : Message} (h : Accepted b (d.params m)) :
    send b d ⟨.senderThread true, m, true⟩ (alarmsAfter b d [⟨.senderThread true, m, false⟩]) =
      (0, notificationErrorReset (paramsUrl d.toEndpoint) [(sentUrl b true d.toEndpoint, 1)]) := by
  have hperform : ∀ performed alarms, httpRequestSendWithCurl b true (d.params m) performed alarms =
      if performed then (0, alarms) else (-9, notificationError (sentUrl b true d.toEndpoint) alarms) := by
    intro performed alarms
    rcases httpRequestSendWithCurl_cases b (d.params m) performed alarms with ⟨-, heq⟩ | ⟨hno, -⟩
    · exact heq
    · exact absurd h hno
  have hfirst : alarmsAfter b d [⟨.senderThread true, m, false⟩] = [(sentUrl b true d.toEndpoint, 1)] := by
    simp [alarmsAfter, send, startSenderThread, httpRequestSend, hperform, notificationError, KeyedList.upsert]
  rw [hfirst]
  simp only [send, startSenderThread, httpRequestSend, hperform, if_true]
  rfl

/-- The alarms of a destination end with its outage if and only if the url that is contacted is the key that the senders
release. -/
theorem outage_ends_iff (b : Broker) (d : Destination) : OutageEnds b d ↔ SameKey b d := by
  constructor
  · intro h
    obtain ⟨m, hm⟩ := exists_accepted b d
    have hretried := h [⟨.senderThread true, m, false⟩] ⟨.senderThread true, m, true⟩
    rw [retried_alarms hm] at hretried
    have hnone : notificationErrorReset (paramsUrl d.toEndpoint) [(sentUrl b true d.toEndpoint, 1)] = [] :=
      hretried.1 rfl
    by_contra hkey
    have hne : sentUrl b true d.toEndpoint ≠ paramsUrl d.toEndpoint := fun heq => hkey ((sentUrl_eq_iff b d).1 heq)
    simp [notificationErrorReset, hne.symm] at hnone
  · intro hkey earlier s
    obtain ⟨-, hsucceeded, hfailed⟩ := send_onlyAlarm hkey s (alarmsAfter_onlyAlarm hkey earlier)
    refine ⟨hsucceeded, fun hr => ?_⟩
    obtain ⟨count, hcount⟩ := hfailed hr
    rw [hcount]
    rfl

def noRush : Broker where
  rushHost := ""
  rushPort := 0
  version := "1.1.0-next"
  curlVersion := "7.19.7"

/-- The alarm is raised for `[::1]:1028/notify` and released for `::1:1028/notify`. -/
def localhost6 : Destination where
  ip := "::1"
  port := 1028
  resource := "/notify"
  ip_ne := by decide
  port_ne := by decide
  resource_ne := by decide

def emptyNotification : Message where
  protocol := "http:"
  verb := "POST"
  tenant := ""
  servicePath := "/"
  xauthToken := ""
  content_type := "application/json"
  content := "[]"
  renderFormat := "JSON"
  fiwareCorrelator := ""

theorem alarm_outlives_outage :
    send noRush localhost6 ⟨.senderThread true, emptyNotification, true⟩
        (alarmsAfter noRush localhost6 [⟨.worker, emptyNotification, false⟩]) =
      (0, [("[::1]:1028/notify", 1)]) ∧
    ¬ OutageEnds noRush localhost6 := by
  have hsent : send noRush localhost6 ⟨.senderThread true, emptyNotification, true⟩
      (alarmsAfter noRush localhost6 [⟨.worker, emptyNotification, false⟩]) = (0, [("[::1]:1028/notify", 1)]) := by
    decide +kernel
  refine ⟨hsent, fun h => ?_⟩
  have hlast := h [⟨.worker, emptyNotification, false⟩] ⟨.senderThread true, emptyNotification, true⟩
  rw [hsent] at hlast
  exact absurd (hlast.1 rfl) (by simp)

end OrionBroker.OutageAlarms
