import VectorTable.Proofs.Session.Run

/-!
# VectorTable — refused requests

A refusal reaches a session as any other answer does, and nothing in the way sessions are made keeps
one from going on. Whether an operation stops is therefore a property of the operation: after a
refusal there is nothing left of it but messages and an error.

* `Session.Stops` — sessions that fail without another request;
* `Session.Guarded` — sessions that stop at a refusal, and check their input before they send
  anything;
* `Session.Guarded.run_answered` — every request but the last was answered, and the last one too if
  the session returned a value;
* `Session.Guarded.run_refusingAt` — a refusal ends the run where it stands;
* `Session.Guarded.rejected_silent` — who rejects the input has sent nothing.
-/

namespace VectorTable

/-- The same database, but for the request at position `i`, which it refuses. -/
def Database.refusingAt (db : Database) (i : Nat) (source : String) : Database :=
  { db with answer := fun n request => if n = i then .error source else db.answer n request }

/-- The same database, but where it refuses a request it gives an empty answer. -/
def Database.obliging (db : Database) : Database :=
  .answering (fun n request => (db.answer n request).toOption.getD ⟨[], 0⟩) db.newId

/-- The error says that the input or the configuration was refused. -/
def Error.RejectsInput : Error → Prop
  | .violation _ | .config _ | .conflict _ => True
  | _ => False

/-- The error is one of the storage, in the driver's words. -/
def Error.Reports (source : String) (error : Error) : Prop :=
  ∃ context, error = .storage context source

namespace Session

variable {α β : Type}

/-! ## Sessions that stop -/

/-- The session fails with a certain error, and only messages come before. -/
def Stops (P : Error → Prop) : Session α → Prop
  | .fail error => P error
  | .note _ next => next.Stops P
  | .done _ | .generate _ | .ask _ _ => False

section

variable {P : Error → Prop} {session : Session α}

/-- What stops sends nothing. -/
theorem Stops.run (h : session.Stops P) (db : Database) (sent generated : Nat) :
    ∃ events error, P error ∧
      session.run db sent generated = ⟨[], events, generated, .error error⟩ := by
  induction session with
  | fail error => exact ⟨[], error, h, rfl⟩
  | note event next ih =>
    obtain ⟨events, error, herror, hrun⟩ := ih h
    refine ⟨event :: events, error, herror, ?_⟩
    exact congrArg (fun t : Transcript α => { t with events := event :: t.events }) hrun
  | done | generate | ask => exact h.elim

/-- Nothing comes after a session that stops. -/
theorem Stops.bind (h : session.Stops P) (f : α → Session β) : (session >>= f).Stops P := by
  induction session with
  | fail error => exact h
  | note event next ih => exact ih h
  | done | generate | ask => exact h.elim

/-- An aborted session stops with its error. -/
theorem stops_abort {error : Error} (h : P error) (events : List Event) :
    (abort events error : Session α).Stops P := by
  induction events with
  | nil => exact h
  | cons event events ih => exact ih

end

/-! ## Guarded sessions -/

/-- The session stops at every refusal, which becomes a storage error with the driver's words, and
no request is sent before the input has been accepted: `sent` says whether one has been sent
already. -/
def Guarded (sent : Bool) : Session α → Prop
  | .done _ => True
  | .fail error => sent = true → ¬ error.RejectsInput
  | .note _ next => next.Guarded sent
  | .generate next => ∀ id, (next id).Guarded sent
  | .ask _ next =>
    (∀ source, (next (.error source)).Stops (Error.Reports source)) ∧
      ∀ reply, (next (.ok reply)).Guarded true

namespace Guarded

/-- What is guarded after a request is guarded before one. -/
theorem weaken {session : Session α} (h : session.Guarded true) (once : Bool) :
    session.Guarded once := by
  induction session with
  | done value => trivial
  | fail error => exact fun _ => h rfl
  | note event next ih => exact ih h
  | generate next ih => exact fun id => ih id (h id)
  | ask request next ih => exact h

/-- One operation after another, where the second rejects nothing. -/
theorem bind {session : Session α} {f : α → Session β} {once : Bool}
    (h : session.Guarded once) (hf : ∀ value, (f value).Guarded true) :
    (session >>= f).Guarded once := by
  induction session generalizing once with
  | done value => exact (hf value).weaken once
  | fail error => exact h
  | note event next ih => exact ih h
  | generate next ih => exact fun id => ih id (h id)
  | ask request next ih =>
    exact ⟨fun source => (h.1 source).bind f, fun reply => ih (.ok reply) (h.2 reply)⟩

/-- A check of the input before anything is sent. -/
theorem check {check : Except Error α} {f : α → Session β}
    (hf : ∀ value, check = .ok value → (f value).Guarded false) :
    ((liftM check : Session α) >>= f).Guarded false := by
  cases check with
  | error error =>
    intro h
    cases h
  | ok value => exact hf value rfl

/-- A check that rejects no input, at any time. -/
theorem lift {check : Except Error α} {once : Bool}
    (h : ∀ error, check = .error error → ¬ error.RejectsInput) :
    (liftM check : Session α).Guarded once := by
  cases check with
  | error error => exact fun _ => h error rfl
  | ok value => trivial

/-- A message is neither sent nor checked. -/
theorem log {speaker : Speaker} {level : Level} {message : String} {once : Bool} :
    (Session.log speaker level message).Guarded once := trivial

/-- A message before anything is sent. -/
theorem log_bind {speaker : Speaker} {level : Level} {message : String}
    {f : Unit → Session β} {once : Bool} (h : (f ()).Guarded once) :
    (Session.log speaker level message >>= f).Guarded once := h

/-- A request whose refusal is reported, with messages or without. -/
theorem send {request : Request} {refusal : Refusal} {once : Bool}
    (h : ∀ source, (refusal source).2.Reports source) :
    (Session.send request refusal).Guarded once :=
  ⟨fun source => stops_abort (h source) _, fun _ => trivial⟩

/-- The same for each element of a list. -/
theorem forM {l : List α} {f : α → Session Unit} {once : Bool}
    (h : ∀ a ∈ l, (f a).Guarded true) : (l.forM f).Guarded once := by
  induction l generalizing once with
  | nil => trivial
  | cons a l ih =>
    obtain ⟨ha, hl⟩ := List.forall_mem_cons.mp h
    exact (ha.weaken once).bind fun _ => ih hl

/-! ## Runs -/

section

variable {session : Session α} {once : Bool}

/-- A refused request is the last of the run, and the refusal is what it fails with. -/
theorem run_refused {request : Request} {next : Except String Reply → Session α}
    (h : (ask request next).Guarded once) {db : Database} {sent : Nat} {source : String}
    (hrefused : db.answer sent request = .error source) (generated : Nat) :
    ∃ events error, error.Reports source ∧
      (ask request next).run db sent generated = ⟨[request], events, generated, .error error⟩ := by
  obtain ⟨events, error, hreports, hrest⟩ := (h.1 source).run db (sent + 1) generated
  exact ⟨events, error, hreports, by rw [run_ask hrefused, hrest]⟩

/-- Every request that is followed by another one was answered. If the session returns a value,
so was the last one. -/
theorem run_answered (h : session.Guarded once) (db : Database) (sent generated : Nat) :
    let t := session.run db sent generated
    ∀ (j : Nat) (request : Request), t.requests[j]? = some request →
      j + 1 < t.requests.length ∨ (∃ value, t.result = .ok value) →
      db.Answers (sent + j) request := by
  induction session generalizing once sent generated with
  | done value => simp [run]
  | fail error => simp [run]
  | note event next ih => exact ih h sent generated
  | generate next ih => exact ih _ (h _) sent (generated + 1)
  | ask request next ih =>
    intro t j asked hj hlater
    cases hanswer : db.answer sent request with
    | error source =>
      -- The only request is the refused one, and there is no value.
      obtain ⟨events, error, -, ht⟩ := h.run_refused hanswer generated
      simp [t, ht] at hlater
    | ok reply =>
      simp only [t, run_ask hanswer, List.length_cons] at hj hlater
      cases j with
      | zero =>
        obtain rfl : request = asked := by simpa using hj
        exact ⟨reply, hanswer⟩
      | succ j =>
        have hrest := ih (.ok reply) (h.2 reply) (sent + 1) generated j asked (by simpa using hj)
          (hlater.imp_left (by omega))
        rwa [show sent + 1 + j = sent + (j + 1) by omega] at hrest

/-- A session that returns a value has met no refusal, and would not have noticed if there were
none. -/
theorem run_obliging (h : session.Guarded once) {db : Database} {sent generated : Nat} {value : α}
    (hvalue : (session.run db sent generated).result = .ok value) :
    session.run db.obliging sent generated = session.run db sent generated := by
  induction session generalizing once sent generated with
  | done a => rfl
  | fail error => rfl
  | note event next ih =>
    exact congrArg (fun t : Transcript α => { t with events := event :: t.events }) (ih h hvalue)
  | generate next ih => exact ih _ (h _) hvalue
  | ask request next ih =>
    cases hanswer : db.answer sent request with
    | error source =>
      -- A refusal would have been the end.
      obtain ⟨events, error, -, hrun⟩ := h.run_refused hanswer generated
      rw [hrun] at hvalue
      cases hvalue
    | ok reply =>
      have hsame : db.obliging.answer sent request = .ok reply := by
        simp [Database.obliging, Database.answering, hanswer, Except.toOption]
      rw [run_ask hanswer] at hvalue ⊢
      rw [run_ask hsame, ih (.ok reply) (h.2 reply) hvalue]

/-- **One refusal.** Where the request at position `i` of a run is refused, the run ends with it:
the requests are those of the run without the refusal, up to that one, and the result is a
storage error with the driver's words. -/
theorem run_refusingAt (h : session.Guarded once) (reply : Nat → Request → Reply)
    (newId : Nat → Uuid) (source : String) (sent generated i : Nat) :
    let db := Database.answering reply newId
    let full := session.run db sent generated
    i < full.requests.length →
    let refused := session.run (db.refusingAt (sent + i) source) sent generated
    refused.requests = full.requests.take (i + 1) ∧
      ∃ error, refused.result = .error error ∧ error.Reports source := by
  induction session generalizing once sent generated i with
  | done value => simp [run]
  | fail error => simp [run]
  | note event next ih => exact ih h sent generated i
  | generate next ih => exact ih _ (h _) sent (generated + 1) i
  | ask request next ih =>
    intro db full hi refused
    cases i with
    | zero =>
      have hanswer : (db.refusingAt (sent + 0) source).answer sent request = .error source :=
        if_pos rfl
      obtain ⟨events, error, hreports, hrefused⟩ := h.run_refused hanswer generated
      simp only [refused, hrefused]
      exact ⟨rfl, error, rfl, hreports⟩
    | succ i =>
      -- The first request is answered as before, and the refusal waits in the rest of the run.
      have hanswer : (db.refusingAt (sent + (i + 1)) source).answer sent request
          = .ok (reply sent request) := if_neg (by omega)
      have hlt : i < ((next (.ok (reply sent request))).run db (sent + 1)
          generated).requests.length := Nat.lt_of_succ_lt_succ hi
      obtain ⟨hrequests, error, hresult, hreports⟩ :=
        ih (.ok (reply sent request)) (h.2 _) (sent + 1) generated i hlt
      rw [show sent + 1 + i = sent + (i + 1) by omega] at hrequests hresult
      simp only [refused, run_ask hanswer]
      exact ⟨congrArg (request :: ·) hrequests, error, hresult, hreports⟩

/-- After a first request no run rejects its input. -/
theorem not_rejected (h : session.Guarded true) (db : Database) (sent generated : Nat)
    (error : Error) (hresult : (session.run db sent generated).result = .error error) :
    ¬ error.RejectsInput := by
  induction session generalizing sent generated with
  | done value => simp [run] at hresult
  | fail fault =>
    obtain rfl : fault = error := by simpa [run] using hresult
    exact h rfl
  | note event next ih => exact ih h sent generated hresult
  | generate next ih => exact ih _ (h _) sent (generated + 1) hresult
  | ask request next ih =>
    cases hanswer : db.answer sent request with
    | ok reply =>
      rw [run_ask hanswer] at hresult
      exact ih (.ok reply) (h.2 reply) (sent + 1) generated hresult
    | error source =>
      -- What has been refused is reported as an error of the storage.
      obtain ⟨events, fault, ⟨context, rfl⟩, hrun⟩ := h.run_refused hanswer generated
      rw [hrun] at hresult
      cases hresult
      exact not_false

/-- A run that rejects its input has sent nothing. -/
theorem rejected_silent (h : session.Guarded once) (db : Database) (sent generated : Nat)
    (error : Error) (hresult : (session.run db sent generated).result = .error error)
    (hrejects : error.RejectsInput) : (session.run db sent generated).requests = [] := by
  induction session generalizing sent generated once with
  | done value => rfl
  | fail fault => rfl
  | note event next ih => exact ih h sent generated hresult
  | generate next ih => exact ih _ (h _) sent (generated + 1) hresult
  | ask request next ih =>
    -- A request is guarded in the same way whether or not it is the first.
    have hsent : (ask request next).Guarded true := h
    exact absurd hrejects (hsent.not_rejected db sent generated error hresult)

end

end Guarded

end Session

end VectorTable
