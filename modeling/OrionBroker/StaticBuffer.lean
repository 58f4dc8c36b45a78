import OrionBroker.ConnectionTreat
import OrionBroker.StepRun

/-!
# The payload of a request (`rest.cpp`)

The parts of a payload are put together in a buffer: one of the size of the payload if the headers say that it is large,
and otherwise one that all the requests share which are treated in the same thread.  The broker may run with a thread for
each connection or with a pool of threads, and then the calls for several connections come one after the other in the
same thread.

`data_call_iff` says when a part of a payload is written inside of its buffer, and `last_call_eq` that a request is
treated with its own payload, whatever was in the buffer before, as long as no other one wrote to it in between.
-/

namespace OrionBroker.Rest

open Cells StepRun
open RestServices (RestTreat RestService)

abbrev STATIC_BUFFER_SIZE : Nat := 32 * 1024

/-! ### A thread -/

/-- What `payload` points to. -/
inductive Payload where
  | null
  | static_buffer
  | malloc (cells : List (Option UInt8))

/-- A connection between its first call and its end; `replied` are the replies that its last call has queued. -/
structure OpenConnection where
  url : String
  ciP : ConnectionInfo
  payload : Payload := .null
  payloadSize : Nat := 0
  replied : Option (List Reply) := none

/-- The buffer of a thread, and the connections that are treated in it. -/
structure Thread (C : Type) where
  static_buffer : List (Option UInt8) := List.replicate (STATIC_BUFFER_SIZE + 1) (some 0)
  con_cls : C → Option OpenConnection := fun _ => none

inductive Call (C : Type) where
  | connectionTreat (connection : C) (request : Request) (upload_data : List UInt8)
  | requestCompleted (connection : C)

/-- A part of the payload is copied and terminated; `none` if it is written outside of the buffer. -/
def gather (upload_data : List UInt8) (con : OpenConnection) (static_buffer : List (Option UInt8)) :
    Option (OpenConnection × List (Option UInt8)) :=
  let contentLength := con.ciP.httpHeaders.contentLength
  if contentLength > PAYLOAD_MAX_SIZE then some (con, static_buffer)
  else
    let payload :=
      if con.payloadSize = 0 then
        if contentLength > STATIC_BUFFER_SIZE then .malloc (List.replicate (contentLength + 1) none) else .static_buffer
      else con.payload
    let written (payload : Payload) : OpenConnection :=
      { con with payload, payloadSize := con.payloadSize + upload_data.length }
    match payload with
    | .null => none
    | .static_buffer =>
      (writeAll static_buffer con.payloadSize (upload_data ++ [0])).map fun cells => (written .static_buffer, cells)
    | .malloc cells =>
      (writeAll cells con.payloadSize (upload_data ++ [0])).map fun cells => (written (.malloc cells), static_buffer)

/-- The payload as it is parsed. -/
def payloadText (static_buffer : List (Option UInt8)) : Payload → Option (Option (List UInt8))
  | .null => some none
  | .static_buffer => (text 0 static_buffer).map some
  | .malloc cells => (text 0 cells).map some

section Steps

variable {C : Type} [DecidableEq C] (debug : Bool)
  (payloadParse : RestService → ConnectionInfo → HttpStatusCode × String)
  (treat : RestTreat → ConnectionInfo → HttpStatusCode × String)

/-- The last call of a connection. -/
def reply (con : OpenConnection) (static_buffer : List (Option UInt8)) : Option OpenConnection :=
  (payloadText static_buffer con.payload).bind fun payload =>
    (lastCall debug payloadParse treat con.url { con.ciP with payload, payloadSize := con.payloadSize }).map fun out =>
      { con with replied := some out.replies }

/-- A connection is not treated again when a reply to it has been queued, and it is completed once. -/
def step : Call C → Thread C → Option (Thread C)
  | .connectionTreat connection request upload_data, t =>
    match t.con_cls connection with
    | none =>
      (connect request).map fun ciP =>
        { t with con_cls := Function.update t.con_cls connection (some { url := request.url, ciP }) }
    | some con =>
      if con.replied.isSome then none
      else if upload_data ≠ [] then
        (gather upload_data con t.static_buffer).map fun (con, static_buffer) =>
          { static_buffer, con_cls := Function.update t.con_cls connection (some con) }
      else
        (reply debug payloadParse treat con t.static_buffer).map fun con =>
          { t with con_cls := Function.update t.con_cls connection (some con) }
  | .requestCompleted connection, t =>
    (t.con_cls connection).map fun _ => { t with con_cls := Function.update t.con_cls connection none }

/-! ### What has been received -/

/-- What is to be known of a connection: the payload up to now, and whether another request has written to the common
buffer since the first part of it. -/
structure Session where
  request : Request
  received : List UInt8 := []
  disturbed : Bool := false
  replied : Bool := false

namespace Session

variable (s : Session)

def contentLength : Nat := s.request.httpHeaders.contentLength

/-- The payload is put together in the common buffer. -/
def common : Bool := s.contentLength ≤ STATIC_BUFFER_SIZE

/-- What the request is treated with. -/
def payload : Option (List UInt8) :=
  if PAYLOAD_MAX_SIZE < s.contentLength ∨ s.received = [] then none else some (upTo 0 s.received)

def payloadSize : Nat := if PAYLOAD_MAX_SIZE < s.contentLength then 0 else s.received.length

/-- The space for the payload, without its terminator. -/
def room : Nat := max s.contentLength STATIC_BUFFER_SIZE

def disturb : Session := { s with disturbed := s.disturbed || (s.common && s.received ≠ []) }

end Session

/-- A call changes its own connection; a part of a payload in the common buffer disturbs the others there. -/
def follow (sessions : C → Option Session) : Call C → C → Option Session
  | .connectionTreat connection request upload_data =>
    match sessions connection with
    | none => Function.update sessions connection (some { request })
    | some s =>
      if upload_data = [] then Function.update sessions connection (some { s with replied := true })
      else
        Function.update (fun other => if s.common then (sessions other).map Session.disturb else sessions other) connection
          (some { s with received := s.received ++ upload_data })
  | .requestCompleted connection => Function.update sessions connection none

def sessions (calls : List (Call C)) : C → Option Session := calls.foldl follow fun _ => none

end Steps

/-! ### The thread follows -/

/-- Where the payload of a session is. -/
structure Holds (static_buffer : List (Option UInt8)) (con : OpenConnection) (s : Session) : Prop where
  url : con.url = s.request.url
  connected : connect s.request = some con.ciP
  replied : con.replied.isSome = s.replied
  payloadSize : con.payloadSize = s.payloadSize
  fits : s.payloadSize ≤ s.room
  null : s.payload = none → con.payload = .null
  common : s.payload ≠ none → s.common = true → con.payload = .static_buffer ∧
    (s.disturbed = false → ∃ rest, static_buffer = s.received.map some ++ some 0 :: rest)
  own : s.payload ≠ none → s.common = false → ∃ rest, con.payload = .malloc (s.received.map some ++ some 0 :: rest) ∧
    s.received.length + rest.length = s.contentLength

/-- The last cell of the common buffer is never anything but a terminator. -/
structure Follows {C : Type} (t : Thread C) (sessions : C → Option Session) : Prop where
  length : t.static_buffer.length = STATIC_BUFFER_SIZE + 1
  holds : ∀ connection, Option.Rel (Holds t.static_buffer) (t.con_cls connection) (sessions connection)

section Gather

variable {static_buffer : List (Option UInt8)} {con : OpenConnection} {s : Session} {upload_data : List UInt8}

theorem httpHeaders_connect {r : Request} {ciP : ConnectionInfo} (h : connect r = some ciP) :
    ciP.httpHeaders = r.httpHeaders ∧ ciP.url = r.url := by
  unfold connect at h
  rw [Option.map_eq_some_iff] at h
  obtain ⟨tenant, -, rfl⟩ := h
  exact ⟨rfl, rfl⟩

theorem payload_eq_none_iff : s.payload = none ↔ PAYLOAD_MAX_SIZE < s.contentLength ∨ s.received = [] := by
  unfold Session.payload
  split <;> simp_all

/-- A part is written behind what is there, if there is space for it and the terminator. -/
theorem writeAll_part {cells : List (Option UInt8)} {received : List UInt8} {room : Nat} (hlength : cells.length = room + 1)
    (hfits : received.length ≤ room) (upload_data : List UInt8) :
    if room < received.length + upload_data.length then writeAll cells received.length (upload_data ++ [0]) = none
    else ∃ rest, writeAll cells received.length (upload_data ++ [0]) =
        some (cells.take received.length ++ upload_data.map some ++ some 0 :: rest) ∧
      (received ++ upload_data).length + rest.length = room := by
  have hle : received.length ≤ cells.length := by omega
  have hwrite := writeAll_eq hle (upload_data ++ [0])
  rw [hwrite, List.length_append, List.length_singleton]
  by_cases hroom : room < received.length + upload_data.length
  · rw [if_pos hroom, if_neg (by omega)]
  · rw [if_neg hroom, if_pos (by omega)]
    refine ⟨cells.drop (received.length + (upload_data.length + 1)), by simp, ?_⟩
    rw [List.length_append, List.length_drop]
    omega

/-- The buffer of the next part holds what has been received up to now. -/
theorem take_received {cells : List (Option UInt8)} {received : List UInt8}
    (h : received ≠ [] → ∃ rest, cells = received.map some ++ some 0 :: rest) :
    cells.take received.length = received.map some := by
  by_cases hnil : received = []
  · simp [hnil]
  · obtain ⟨rest, hrest⟩ := h hnil
    rw [hrest]
    exact List.take_left' (by simp)

variable (static_buffer con s upload_data) in
/-- A part of a supported payload is written behind the others, if there is space for it. -/
def Gathers : Prop :=
  if s.room < s.received.length + upload_data.length then gather upload_data con static_buffer = none
  else ∃ con' cells, gather upload_data con static_buffer = some (con', cells) ∧ cells.length = STATIC_BUFFER_SIZE + 1 ∧
    (s.common = false → cells = static_buffer) ∧ Holds cells con' { s with received := s.received ++ upload_data }

/-- The pointer to the buffer of the next part. -/
def nextPayload (con : OpenConnection) (s : Session) : Payload :=
  if s.received.length = 0 then
    if s.contentLength > STATIC_BUFFER_SIZE then .malloc (List.replicate (s.contentLength + 1) none) else .static_buffer
  else con.payload

theorem payload_of_supported (hsmall : ¬PAYLOAD_MAX_SIZE < s.contentLength) : s.payload = none ↔ s.received = [] := by
  rw [payload_eq_none_iff]
  tauto

theorem gather_supported (hholds : Holds static_buffer con s) (hsmall : ¬PAYLOAD_MAX_SIZE < s.contentLength) :
    gather upload_data con static_buffer =
      let written (payload : Payload) : OpenConnection :=
        { con with payload, payloadSize := s.received.length + upload_data.length }
      match nextPayload con s with
      | .null => none
      | .static_buffer =>
        (writeAll static_buffer s.received.length (upload_data ++ [0])).map fun cells => (written .static_buffer, cells)
      | .malloc cells =>
        (writeAll cells s.received.length (upload_data ++ [0])).map fun cells => (written (.malloc cells), static_buffer) := by
  have hcontent : con.ciP.httpHeaders.contentLength = s.contentLength := by
    rw [(httpHeaders_connect hholds.connected).1]
    rfl
  have hsize : s.payloadSize = s.received.length := if_neg hsmall
  unfold gather
  rw [hcontent, if_neg hsmall, hholds.payloadSize, hsize]
  rfl

/-- A session after a part that has been written, without its buffer. -/
theorem Holds.written (hholds : Holds static_buffer con s) (hsmall : ¬PAYLOAD_MAX_SIZE < s.contentLength)
    (hne : upload_data ≠ []) (hfits : s.received.length + upload_data.length ≤ s.room) {cells : List (Option UInt8)}
    {payload : Payload}
    (hcommon : s.common = true → payload = .static_buffer ∧
      (s.disturbed = false → ∃ rest, cells = (s.received ++ upload_data).map some ++ some 0 :: rest))
    (hown : s.common = false → ∃ rest, payload = .malloc ((s.received ++ upload_data).map some ++ some 0 :: rest) ∧
      (s.received ++ upload_data).length + rest.length = s.contentLength) :
    Holds cells { con with payload, payloadSize := s.received.length + upload_data.length }
      { s with received := s.received ++ upload_data } := by
  have hsize : Session.payloadSize { s with received := s.received ++ upload_data } = s.received.length + upload_data.length :=
    (if_neg hsmall).trans List.length_append
  refine ⟨hholds.url, hholds.connected, hholds.replied, hsize.symm, ?_, fun hnone => ?_, fun _ => hcommon, fun _ => hown⟩
  · rw [hsize]
    exact hfits
  · rw [payload_eq_none_iff, List.append_eq_nil_iff] at hnone
    rcases hnone with hlarge | hnil
    · exact absurd hlarge hsmall
    · exact absurd hnil.2 hne

theorem gathers_common (hholds : Holds static_buffer con s) (hlength : static_buffer.length = STATIC_BUFFER_SIZE + 1)
    (hne : upload_data ≠ []) (hcommon : s.common = true) : Gathers static_buffer con s upload_data := by
  have hlimit : s.contentLength ≤ STATIC_BUFFER_SIZE := by simpa [Session.common] using hcommon
  have hsmall : ¬PAYLOAD_MAX_SIZE < s.contentLength := by
    have hsizes : STATIC_BUFFER_SIZE ≤ PAYLOAD_MAX_SIZE := by decide
    omega
  have hroom : s.room = STATIC_BUFFER_SIZE := Nat.max_eq_right hlimit
  have hreceived : s.received.length ≤ STATIC_BUFFER_SIZE := by
    rw [← hroom]
    exact (if_neg hsmall).symm.le.trans hholds.fits
  have hpayload : nextPayload con s = .static_buffer := by
    unfold nextPayload
    split
    · exact if_neg (by omega)
    · rename_i hsome
      refine (hholds.common ?_ hcommon).1
      rw [ne_eq, payload_of_supported hsmall]
      exact fun hnil => hsome (List.length_eq_zero_iff.2 hnil)
  have hpart := writeAll_part hlength hreceived upload_data
  unfold Gathers
  rw [gather_supported hholds hsmall, hpayload, hroom]
  dsimp only
  by_cases hspace : STATIC_BUFFER_SIZE < s.received.length + upload_data.length
  · rw [if_pos hspace] at hpart ⊢
    rw [hpart]
    rfl
  · rw [if_neg hspace] at hpart ⊢
    obtain ⟨rest, hwrite, hrest⟩ := hpart
    rw [hwrite]
    refine ⟨_, _, rfl, ?_, by simp [hcommon], ?_⟩
    · rw [List.length_append, List.length_append, List.length_take, List.length_map, List.length_cons]
      rw [List.length_append] at hrest
      omega
    · refine hholds.written hsmall hne (by omega) (fun _ => ⟨rfl, fun hundisturbed => ⟨rest, ?_⟩⟩) fun hown => ?_
      · rw [take_received fun hsome => (hholds.common (mt (payload_of_supported hsmall).1 hsome) hcommon).2 hundisturbed]
        simp
      · exact absurd (hcommon.symm.trans hown) (by simp)

theorem gathers_own (hholds : Holds static_buffer con s) (hlength : static_buffer.length = STATIC_BUFFER_SIZE + 1)
    (hne : upload_data ≠ []) (hcommon : s.common = false) (hsmall : ¬PAYLOAD_MAX_SIZE < s.contentLength) :
    Gathers static_buffer con s upload_data := by
  have hlimit : STATIC_BUFFER_SIZE < s.contentLength := by simpa [Session.common] using hcommon
  have hroom : s.room = s.contentLength := Nat.max_eq_left (by omega)
  have hreceived : s.received.length ≤ s.contentLength := by
    rw [← hroom]
    exact (if_neg hsmall).symm.le.trans hholds.fits
  obtain ⟨cells, hpayload, hcells, hheld⟩ : ∃ cells, nextPayload con s = .malloc cells ∧ cells.length = s.contentLength + 1 ∧
      (s.received ≠ [] → ∃ rest, cells = s.received.map some ++ some 0 :: rest) := by
    unfold nextPayload
    by_cases hnil : s.received = []
    · exact ⟨_, by rw [hnil, List.length_nil, if_pos rfl, if_pos hlimit], List.length_replicate, fun hsome => absurd hnil hsome⟩
    · obtain ⟨rest, hcells, hrest⟩ := hholds.own (mt (payload_of_supported hsmall).1 hnil) hcommon
      refine ⟨_, ?_, ?_, fun _ => ⟨rest, rfl⟩⟩
      · rw [if_neg fun hzero => hnil (List.length_eq_zero_iff.1 hzero)]
        exact hcells
      · simp only [List.length_append, List.length_map, List.length_cons]
        omega
  have hpart := writeAll_part hcells hreceived upload_data
  unfold Gathers
  rw [gather_supported hholds hsmall, hpayload, hroom]
  dsimp only
  by_cases hspace : s.contentLength < s.received.length + upload_data.length
  · rw [if_pos hspace] at hpart ⊢
    rw [hpart]
    rfl
  · rw [if_neg hspace] at hpart ⊢
    obtain ⟨rest, hwrite, hrest⟩ := hpart
    rw [hwrite]
    refine ⟨_, _, rfl, hlength, fun _ => rfl, ?_⟩
    refine hholds.written hsmall hne (by omega) (fun hyes => ?_) fun _ => ⟨rest, ?_, hrest⟩
    · exact absurd (hyes.symm.trans hcommon) (by simp)
    · rw [take_received hheld]
      simp

/-- A part of any payload. -/
theorem gather_spec (hholds : Holds static_buffer con s) (hlength : static_buffer.length = STATIC_BUFFER_SIZE + 1)
    (hne : upload_data ≠ []) :
    if PAYLOAD_MAX_SIZE < s.contentLength then gather upload_data con static_buffer = some (con, static_buffer)
    else Gathers static_buffer con s upload_data := by
  split
  · rename_i hlarge
    unfold gather
    rw [(httpHeaders_connect hholds.connected).1]
    exact if_pos hlarge
  · rename_i hsmall
    cases hcommon : s.common with
    | true => exact gathers_common hholds hlength hne hcommon
    | false => exact gathers_own hholds hlength hne hcommon hsmall

/-- What is known of a part that has been written. -/
theorem gathered (hholds : Holds static_buffer con s) (hlength : static_buffer.length = STATIC_BUFFER_SIZE + 1)
    (hne : upload_data ≠ []) {con' : OpenConnection} {cells : List (Option UInt8)}
    (h : gather upload_data con static_buffer = some (con', cells)) :
    cells.length = STATIC_BUFFER_SIZE + 1 ∧ Holds cells con' { s with received := s.received ++ upload_data } ∧
      (s.common = false → cells = static_buffer) := by
  have hspec := gather_spec hholds hlength hne
  split at hspec
  · rename_i hlarge
    rw [h] at hspec
    cases hspec
    have hnone : ∀ received, Session.payload { s with received } = none := fun received =>
      payload_eq_none_iff.2 (Or.inl hlarge)
    have hsize : ∀ received, Session.payloadSize { s with received } = 0 := fun received => if_pos hlarge
    refine ⟨hlength, ⟨hholds.url, hholds.connected, hholds.replied, ?_, ?_, fun _ => ?_, fun hpayload => ?_, fun hpayload => ?_⟩,
      fun _ => rfl⟩
    · exact (hholds.payloadSize.trans (hsize s.received)).trans (hsize _).symm
    · rw [hsize]
      exact Nat.zero_le _
    · exact hholds.null (hnone s.received)
    · exact absurd (hnone _) hpayload
    · exact absurd (hnone _) hpayload
  · unfold Gathers at hspec
    split at hspec
    · rw [h] at hspec
      cases hspec
    · rw [h] at hspec
      obtain ⟨con'', cells', heq, hcells, hsame, hheld⟩ := hspec
      cases heq
      exact ⟨hcells, hheld, hsame⟩

end Gather

section Runs

variable {C : Type} [DecidableEq C] {debug : Bool} {payloadParse : RestService → ConnectionInfo → HttpStatusCode × String}
  {treat : RestTreat → ConnectionInfo → HttpStatusCode × String} {t t' : Thread C} {σ : C → Option Session}
  {static_buffer : List (Option UInt8)} {con : OpenConnection} {s : Session}

/-- Whatever has been written to the common buffer. -/
theorem Holds.disturb (h : Holds static_buffer con s) (cells : List (Option UInt8)) : Holds cells con s.disturb := by
  refine ⟨h.url, h.connected, h.replied, h.payloadSize, h.fits, h.null, fun hpayload hcommon => ⟨(h.common hpayload hcommon).1, ?_⟩,
    h.own⟩
  intro hundisturbed
  have hreceived : s.received ≠ [] := fun hnil => hpayload (payload_eq_none_iff.2 (Or.inr hnil))
  have hyes : s.disturb.disturbed = true := by
    have hcommon' : s.common = true := hcommon
    simp [Session.disturb, hcommon', hreceived]
  rw [hyes] at hundisturbed
  cases hundisturbed

/-- A payload that nothing else has been written over. -/
theorem Holds.payloadText (h : Holds static_buffer con s) (hundisturbed : s.disturbed = false) :
    payloadText static_buffer con.payload = some s.payload := by
  by_cases hnone : s.payload = none
  · rw [h.null hnone, hnone]
    rfl
  · have hpayload : s.payload = some (upTo 0 s.received) := by
      unfold Session.payload at hnone ⊢
      split at hnone
      · exact absurd rfl hnone
      · rename_i hnot
        rw [if_neg hnot]
    rw [hpayload]
    cases hcommon : s.common with
    | true =>
      obtain ⟨hpointer, hheld⟩ := h.common hnone hcommon
      obtain ⟨rest, hrest⟩ := hheld hundisturbed
      rw [hpointer, hrest]
      exact congrArg (Option.map some) (text_upTo s.received rest)
    | false =>
      obtain ⟨rest, hpointer, -⟩ := h.own hnone hcommon
      rw [hpointer]
      exact congrArg (Option.map some) (text_upTo s.received rest)

theorem follows_step {call : Call C} (h : Follows t σ) (hstep : step debug payloadParse treat call t = some t') :
    Follows t' (follow σ call) := by
  cases call with
  | requestCompleted connection =>
    obtain ⟨con, -, rfl⟩ := Option.map_eq_some_iff.1 hstep
    refine ⟨h.length, fun other => ?_⟩
    by_cases hother : other = connection
    · subst hother
      simp [follow]
    · simpa [follow, hother] using h.holds other
  | connectionTreat connection request upload_data =>
    have hrel := h.holds connection
    unfold step at hstep
    unfold follow
    dsimp only at hstep ⊢
    cases hcon : t.con_cls connection with
    | none =>
      rw [hcon] at hstep hrel
      obtain ⟨ciP, hconnect, rfl⟩ := Option.map_eq_some_iff.1 hstep
      cases hσ : σ connection with
      | some s =>
        rw [hσ] at hrel
        cases hrel
      | none =>
        refine ⟨h.length, fun other => ?_⟩
        by_cases hother : other = connection
        · subst hother
          dsimp only
          rw [Function.update_self, Function.update_self]
          refine .some ⟨rfl, hconnect, rfl, ?_, ?_, fun _ => rfl, ?_, ?_⟩
          · simp [Session.payloadSize]
          · simp [Session.payloadSize]
          · intro hpayload
            exact absurd (payload_eq_none_iff.2 (Or.inr rfl)) hpayload
          · intro hpayload
            exact absurd (payload_eq_none_iff.2 (Or.inr rfl)) hpayload
        · simpa [hother] using h.holds other
    | some con =>
      rw [hcon] at hstep hrel
      cases hσ : σ connection with
      | none =>
        rw [hσ] at hrel
        cases hrel
      | some s =>
        rw [hσ] at hrel
        have hholds : Holds t.static_buffer con s := by
          cases hrel
          assumption
        dsimp only at hstep ⊢
        split at hstep
        · cases hstep
        · split at hstep
          · rename_i hne
            rw [if_neg hne]
            obtain ⟨⟨con', cells⟩, hgather, rfl⟩ := Option.map_eq_some_iff.1 hstep
            obtain ⟨hcells, hheld, hothers⟩ := gathered hholds h.length hne hgather
            refine ⟨hcells, fun other => ?_⟩
            by_cases hother : other = connection
            · subst hother
              dsimp only
              rw [Function.update_self, Function.update_self]
              exact .some hheld
            · dsimp only
              rw [Function.update_of_ne hother, Function.update_of_ne hother]
              have hrel' := h.holds other
              cases hcommon : s.common with
              | true =>
                rw [if_pos rfl]
                generalize t.con_cls other = c at hrel' ⊢
                generalize σ other = s' at hrel' ⊢
                cases hrel' with
                | none => exact .none
                | some hholds' => exact .some (hholds'.disturb cells)
              | false =>
                rw [if_neg (by simp), hothers hcommon]
                exact hrel'
          · rename_i hnil
            rw [if_pos (not_not.1 hnil)]
            obtain ⟨con', hreply, rfl⟩ := Option.map_eq_some_iff.1 hstep
            obtain ⟨payload, -, hlast⟩ := Option.bind_eq_some_iff.1 hreply
            obtain ⟨out, -, rfl⟩ := Option.map_eq_some_iff.1 hlast
            refine ⟨h.length, fun other => ?_⟩
            by_cases hother : other = connection
            · subst hother
              dsimp only
              rw [Function.update_self, Function.update_self]
              exact .some ⟨hholds.url, hholds.connected, rfl, hholds.payloadSize, hholds.fits, hholds.null, hholds.common,
                hholds.own⟩
            · dsimp only
              rw [Function.update_of_ne hother, Function.update_of_ne hother]
              exact h.holds other

omit [DecidableEq C] in
theorem follows_start : Follows (C := C) {} fun _ => none :=
  ⟨List.length_replicate, fun _ => .none⟩

/-- The run lemma: by induction on the calls, of which the last one is taken off. -/
theorem follows_run {calls : List (Call C)} (h : run (step debug payloadParse treat) calls {} = some t) :
    Follows t (sessions calls) := by
  induction calls using List.reverseRecOn generalizing t with
  | nil =>
    cases h
    exact follows_start
  | append_singleton calls call ih =>
    rw [run_append] at h
    obtain ⟨t', hrun, hlast⟩ := Option.bind_eq_some_iff.1 h
    obtain ⟨t'', hstep, hend⟩ := Option.bind_eq_some_iff.1 hlast
    cases hend
    unfold sessions
    rw [List.foldl_concat]
    exact follows_step (ih hrun) hstep

omit [DecidableEq C] in
/-- The connection of a session that has not been replied to. -/
theorem Follows.exists_holds (h : Follows t σ) {connection : C} (hσ : σ connection = some s) (hreplied : s.replied = false) :
    ∃ con, t.con_cls connection = some con ∧ Holds t.static_buffer con s ∧ con.replied.isSome = false := by
  have hrel := h.holds connection
  rw [hσ] at hrel
  cases hcon : t.con_cls connection with
  | none =>
    rw [hcon] at hrel
    cases hrel
  | some con =>
    rw [hcon] at hrel
    cases hrel
    rename_i hholds
    exact ⟨con, rfl, hholds, hholds.replied.trans hreplied⟩

/-- The step lemma for a part of a payload. -/
theorem Follows.data_call (h : Follows t σ) {connection : C} (hσ : σ connection = some s) (hreplied : s.replied = false)
    (request : Request) {upload_data : List UInt8} (hne : upload_data ≠ []) :
    (∃ t', step debug payloadParse treat (.connectionTreat connection request upload_data) t = some t') ↔
      PAYLOAD_MAX_SIZE < s.contentLength ∨ s.received.length + upload_data.length ≤ s.room := by
  obtain ⟨con, hcon, hholds, hopen⟩ := h.exists_holds hσ hreplied
  have hspec := gather_spec hholds h.length hne
  have hstep : (∃ t', step debug payloadParse treat (.connectionTreat connection request upload_data) t = some t') ↔
      (gather upload_data con t.static_buffer).isSome = true := by
    rw [← Option.isSome_iff_exists]
    unfold step
    simp only [hcon, hopen, Bool.false_eq_true, if_false, if_pos hne, Option.isSome_map]
  rw [hstep]
  split at hspec
  · rename_i hlarge
    exact iff_of_true (by rw [hspec]; rfl) (Or.inl hlarge)
  · rename_i hsmall
    unfold Gathers at hspec
    split at hspec
    · rename_i hover
      exact iff_of_false (by rw [hspec]; simp) (not_or.2 ⟨hsmall, Nat.not_le.2 hover⟩)
    · rename_i hfits
      obtain ⟨con', cells, hgather, -⟩ := hspec
      exact iff_of_true (by rw [hgather]; rfl) (Or.inr (Nat.not_lt.1 hfits))

/-- In every run, the next part of a payload is written inside of its buffer if and only if the headers of the request
give a length that is not supported, and then nothing is written, or the payload is not longer than they say or, if they
say that it is small or nothing, not longer than the common buffer. -/
theorem data_call_iff {calls : List (Call C)} (h : run (step debug payloadParse treat) calls {} = some t) {connection : C}
    (hsession : sessions calls connection = some s) (hreplied : s.replied = false) (request : Request)
    {upload_data : List UInt8} (hne : upload_data ≠ []) :
    (∃ t', step debug payloadParse treat (.connectionTreat connection request upload_data) t = some t') ↔
      PAYLOAD_MAX_SIZE < s.contentLength ∨
        s.received.length + upload_data.length ≤ max s.contentLength STATIC_BUFFER_SIZE :=
  (follows_run h).data_call hsession hreplied request hne

/-- In every run, the last call for a connection treats the request with what has been received for it and nothing else,
whatever the requests before it and other connections have left in the buffer, unless another request has written to the
common buffer since the first part of the payload. -/
theorem last_call_eq {calls : List (Call C)} (h : run (step debug payloadParse treat) calls {} = some t) {connection : C}
    (hsession : sessions calls connection = some s) (hreplied : s.replied = false) (hundisturbed : s.disturbed = false)
    (request : Request) :
    ∃ ciP, connect s.request = some ciP ∧
      (step debug payloadParse treat (.connectionTreat connection request []) t).map
          (fun t' => (t'.con_cls connection).bind OpenConnection.replied) =
        (lastCall debug payloadParse treat s.request.url
          { ciP with payload := s.payload, payloadSize := s.payloadSize }).map fun out => some out.replies := by
  obtain ⟨con, hcon, hholds, hopen⟩ := (follows_run h).exists_holds hsession hreplied
  refine ⟨con.ciP, hholds.connected, ?_⟩
  have hstep : step debug payloadParse treat (.connectionTreat connection request []) t =
      (reply debug payloadParse treat con t.static_buffer).map fun con =>
        { t with con_cls := Function.update t.con_cls connection (some con) } := by
    unfold step
    simp only [hcon, hopen, Bool.false_eq_true, if_false, ne_eq, not_true_eq_false]
  have hreply : reply debug payloadParse treat con t.static_buffer =
      (lastCall debug payloadParse treat s.request.url
        { con.ciP with payload := s.payload, payloadSize := s.payloadSize }).map fun out =>
          { con with replied := some out.replies } := by
    unfold reply
    rw [hholds.payloadText hundisturbed, Option.bind_some, hholds.url, hholds.payloadSize]
  rw [hstep, hreply, Option.map_map, Option.map_map]
  refine Option.map_congr fun out _ => ?_
  simp

/-- A connection that has its thread for itself is not disturbed. -/
theorem undisturbed_of_alone {calls : List (Call C)} {connection : C}
    (halone : ∀ other request upload_data, Call.connectionTreat other request upload_data ∈ calls → other = connection)
    (hsession : sessions calls connection = some s) : s.disturbed = false := by
  induction calls using List.reverseRecOn generalizing s with
  | nil => cases hsession
  | append_singleton calls call ih =>
    have hbefore := fun s => ih (s := s) fun other request upload_data hmem =>
      halone other request upload_data (List.mem_append_left _ hmem)
    unfold sessions at hsession hbefore
    rw [List.foldl_concat] at hsession
    generalize hσ : calls.foldl follow (fun _ => none) = σ at hsession hbefore
    cases call with
    | requestCompleted other =>
      unfold follow at hsession
      dsimp only at hsession
      by_cases hother : connection = other
      · rw [hother, Function.update_self] at hsession
        cases hsession
      · rw [Function.update_of_ne hother] at hsession
        exact hbefore s hsession
    | connectionTreat other request upload_data =>
      obtain rfl := halone other request upload_data (by simp)
      unfold follow at hsession
      dsimp only at hsession
      cases hold : σ other with
      | none =>
        rw [hold] at hsession
        dsimp only at hsession
        rw [Function.update_self, Option.some.injEq] at hsession
        rw [← hsession]
      | some s' =>
        rw [hold] at hsession
        dsimp only at hsession
        have hundisturbed := hbefore s' hold
        split at hsession
        · rw [Function.update_self, Option.some.injEq] at hsession
          rw [← hsession]
          exact hundisturbed
        · rw [Function.update_self, Option.some.injEq] at hsession
          rw [← hsession]
          exact hundisturbed

end Runs

/-! ### A run -/

/-- A request without a length, such as one whose payload is sent in chunks. -/
def chunkedRequest : Request where
  method := "GET"
  url := "/v2/entities"

/-- The first call for it. -/
theorem run_first :
    ∃ t, run (step false parsesAll treatsAll) [.connectionTreat () chunkedRequest []] {} = some t := by
  have hconnect : (connect chunkedRequest).isSome = true := by decide +kernel
  obtain ⟨ciP, hciP⟩ := Option.isSome_iff_exists.1 hconnect
  simp [run, step, hciP]

/-- And a call with a character of the payload. -/
theorem run_second :
    ∃ t, run (step false parsesAll treatsAll)
      [.connectionTreat () chunkedRequest [], .connectionTreat () chunkedRequest [65]] {} = some t := by
  obtain ⟨t, ht⟩ := run_first
  have hstep : ∃ t', step false parsesAll treatsAll (.connectionTreat () chunkedRequest [65]) t = some t' :=
    ((follows_run ht).data_call (s := { request := chunkedRequest }) rfl rfl chunkedRequest (by simp)).2
      (Or.inr (le_max_of_le_right (by decide)))
  obtain ⟨t', ht'⟩ := hstep
  refine ⟨t', ?_⟩
  rw [← List.singleton_append, run_append, ht, Option.bind_some, run, ht']
  rfl

theorem data_call_second : ∃ t, run (step false parsesAll treatsAll) [.connectionTreat () chunkedRequest []] {} = some t ∧
    ((∃ t', step false parsesAll treatsAll (.connectionTreat () chunkedRequest [65]) t = some t') ↔
      PAYLOAD_MAX_SIZE < chunkedRequest.httpHeaders.contentLength ∨
        0 + 1 ≤ max chunkedRequest.httpHeaders.contentLength STATIC_BUFFER_SIZE) := by
  obtain ⟨t, ht⟩ := run_first
  exact ⟨t, ht, data_call_iff (s := { request := chunkedRequest }) ht rfl rfl chunkedRequest (by simp)⟩

/-- The request is treated with this character. -/
theorem last_call_third : ∃ t ciP, run (step false parsesAll treatsAll)
      [.connectionTreat () chunkedRequest [], .connectionTreat () chunkedRequest [65]] {} = some t ∧
    connect chunkedRequest = some ciP ∧
    (step false parsesAll treatsAll (.connectionTreat () chunkedRequest []) t).map
        (fun t' => (t'.con_cls ()).bind OpenConnection.replied) =
      (lastCall false parsesAll treatsAll chunkedRequest.url { ciP with payload := some [65], payloadSize := 1 }).map
        fun out => some out.replies := by
  obtain ⟨t, ht⟩ := run_second
  have hsession : sessions [.connectionTreat () chunkedRequest [], .connectionTreat () chunkedRequest [65]] () =
      some { request := chunkedRequest, received := [65] } := rfl
  obtain ⟨ciP, hciP, heq⟩ := last_call_eq ht hsession rfl rfl chunkedRequest
  have hsmall : chunkedRequest.httpHeaders.contentLength = 0 := by decide +kernel
  refine ⟨t, ciP, ht, hciP, ?_⟩
  rw [heq]
  simp [Session.payload, Session.payloadSize, Session.contentLength, hsmall, upTo]

end OrionBroker.Rest
