import Mathlib.Data.List.Basic
import VectorTable.Proofs.Except
import VectorTable.Session

/-!
# VectorTable — runs of a session

What a run of a session looks like against any database. A run goes through the session from its
beginning, so that most facts are proved by induction on the session, for any number of requests
that have been sent before.

* `Session.run_bind_ok`, `Session.run_bind_error`, `Session.result_bind_eq_ok` — a run of one
  operation after another;
* `Session.run_send_bind_ok`, `Session.run_send_bind_error` — a run that starts with a request;
* `Session.run_bind_pure` — a run whose value is changed in the end;
* `Session.Completes` — sessions that send given requests and return a value;
* `Session.Sends` — sessions that send nothing but requests with a property.
-/

namespace VectorTable

/-- The database that answers every request, the one at a position by what `reply` says. -/
def Database.answering (reply : Nat → Request → Reply) (newId : Nat → Uuid) : Database :=
  ⟨fun n request => .ok (reply n request), newId⟩

/-- The database answers a request at a position. -/
def Database.Answers (db : Database) (n : Nat) (request : Request) : Prop :=
  ∃ reply, db.answer n request = .ok reply

namespace Session

variable {α β : Type}

/-! ## One operation after another -/

/-- A session that goes on with nothing is itself. -/
theorem bind_done (session : Session α) : session >>= .done = session := by
  induction session with
  | done a => rfl
  | fail error => rfl
  | note event next ih => exact congrArg (note event) ih
  | generate next ih => exact congrArg generate (funext ih)
  | ask request next ih => exact congrArg (ask request) (funext ih)

/-- Sessions are put one behind the other in any grouping. -/
theorem bind_bind {γ : Type} (session : Session α) (f : α → Session β) (g : β → Session γ) :
    session >>= f >>= g = session >>= fun a => f a >>= g := by
  induction session with
  | done a => rfl
  | fail error => rfl
  | note event next ih => exact congrArg (note event) ih
  | generate next ih => exact congrArg generate (funext ih)
  | ask request next ih => exact congrArg (ask request) (funext ih)

instance : LawfulMonad Session := .mk' Session bind_done (fun _ _ => rfl) bind_bind

section

variable {db : Database} {session : Session α} {f : α → Session β} {sent generated : Nat}

/-- Where the first operation returns a value, the second goes on from where it stopped. -/
theorem run_bind_ok {value : α} (h : (session.run db sent generated).result = .ok value) :
    let t := session.run db sent generated
    let u := (f value).run db (sent + t.requests.length) t.generated
    (session >>= f).run db sent generated
      = ⟨t.requests ++ u.requests, t.events ++ u.events, u.generated, u.result⟩ := by
  induction session generalizing sent generated with
  | done a =>
    obtain rfl : a = value := by simpa [run] using h
    rfl
  | fail error => simp [run] at h
  | note event next ih =>
    have hnext := ih h
    exact congrArg (fun t => { t with events := event :: t.events }) hnext
  | generate next ih => exact ih _ h
  | ask request next ih =>
    have hnext := ih (db.answer sent request) h
    -- The request of the first step has been sent when the second operation starts.
    dsimp only at hnext
    rw [Nat.add_right_comm] at hnext
    exact congrArg (fun t => { t with requests := request :: t.requests }) hnext

/-- Where the first operation fails, that is all. -/
theorem run_bind_error {error : Error} (h : (session.run db sent generated).result = .error error) :
    ((session >>= f).run db sent generated).requests = (session.run db sent generated).requests ∧
      ((session >>= f).run db sent generated).result = .error error := by
  induction session generalizing sent generated with
  | done a => simp [run] at h
  | fail e =>
    obtain rfl : e = error := by simpa [run] using h
    exact ⟨rfl, rfl⟩
  | note event next ih => exact ih h
  | generate next ih => exact ih _ h
  | ask request next ih =>
    obtain ⟨hrequests, hresult⟩ := ih (db.answer sent request) h
    exact ⟨congrArg (request :: ·) hrequests, hresult⟩

/-- A sequence returns a value exactly if its first operation does and the second one, which goes on
from there, does too. -/
theorem result_bind_eq_ok {value : β} :
    ((session >>= f).run db sent generated).result = .ok value ↔
      ∃ a, (session.run db sent generated).result = .ok a ∧
        ((f a).run db (sent + (session.run db sent generated).requests.length)
          (session.run db sent generated).generated).result = .ok value := by
  cases h : (session.run db sent generated).result with
  | error error =>
    rw [(run_bind_error h).2]
    constructor
    · intro hvalue
      cases hvalue
    · rintro ⟨a, ha, -⟩
      cases ha
  | ok a =>
    rw [run_bind_ok h]
    constructor
    · intro hvalue
      exact ⟨a, rfl, hvalue⟩
    · rintro ⟨a', ha', hvalue⟩
      cases ha'
      exact hvalue

/-- A value that is changed in the end leaves all that was sent and logged as it was. -/
theorem run_bind_pure (session : Session α) (f : α → β) :
    (session >>= fun a => pure (f a)).run db sent generated =
      let t := session.run db sent generated
      ⟨t.requests, t.events, t.generated, t.result.map f⟩ := by
  induction session generalizing sent generated with
  | done a => rfl
  | fail error => rfl
  | note event next ih =>
    exact congrArg (fun t : Transcript β => { t with events := event :: t.events }) ih
  | generate next ih => exact ih _
  | ask request next ih =>
    exact congrArg (fun t : Transcript β => { t with requests := request :: t.requests })
      (ih (db.answer sent request))

end

/-! ## Single steps -/

section

variable {db : Database} {sent generated : Nat}

/-- A check sends nothing and is the whole outcome. -/
theorem run_lift (check : Except Error α) :
    (liftM check : Session α).run db sent generated = ⟨[], [], generated, check⟩ := by
  cases check <;> rfl

/-- A message comes before those of the rest, which it leaves alone. -/
theorem run_log_bind {f : Unit → Session β} (speaker : Speaker) (level : Level)
    (message : String) :
    (Session.log speaker level message >>= f).run db sent generated =
      { (f ()).run db sent generated with
        events := ⟨speaker, level, message⟩ :: ((f ()).run db sent generated).events } := rfl

/-- An end with an error is the end of all that would follow. -/
theorem abort_bind (events : List Event) (error : Error) (f : α → Session β) :
    abort events error >>= f = abort events error := by
  induction events with
  | nil => rfl
  | cons event events ih => exact congrArg (note event) ih

/-- An aborted session tells its messages and sends nothing. -/
theorem run_abort (events : List Event) (error : Error) :
    (abort events error : Session α).run db sent generated =
      ⟨[], events, generated, .error error⟩ := by
  induction events with
  | nil => rfl
  | cons event events ih =>
    exact congrArg (fun t : Transcript α => { t with events := event :: t.events }) ih

section

variable {request : Request} {refusal : Refusal} {f : Reply → Session β}

/-- A request is the first of the run, and the rest goes on with the answer. -/
theorem run_ask {next : Except String Reply → Session α} {answer : Except String Reply}
    (h : db.answer sent request = answer) :
    (ask request next).run db sent generated =
      { (next answer).run db (sent + 1) generated with
        requests := request :: ((next answer).run db (sent + 1) generated).requests } := by
  rw [run, h]

/-- An answered request is the first of the run, and the rest goes on with the reply. -/
theorem run_send_bind_ok {reply : Reply} (h : db.answer sent request = .ok reply) :
    (Session.send request refusal >>= f).run db sent generated =
      { (f reply).run db (sent + 1) generated with
        requests := request :: ((f reply).run db (sent + 1) generated).requests } :=
  run_ask h

/-- A refused request is the only one of the run. -/
theorem run_send_bind_error {source : String} (h : db.answer sent request = .error source) :
    (Session.send request refusal >>= f).run db sent generated =
      ⟨[request], (refusal source).1, generated, .error (refusal source).2⟩ := by
  have habort : ((abort (refusal source).1 (refusal source).2 : Session Reply) >>= f).run db
      (sent + 1) generated = ⟨[], (refusal source).1, generated, .error (refusal source).2⟩ := by
    rw [abort_bind, run_abort]
  exact (run_ask h).trans
    (congrArg (fun t : Transcript β => { t with requests := request :: t.requests }) habort)

/-- What starts with a request returns a value exactly if the request is answered and the rest
returns it. -/
theorem result_send_bind_eq_ok {value : β} :
    ((Session.send request refusal >>= f).run db sent generated).result = .ok value ↔
      ∃ reply, db.answer sent request = .ok reply ∧
        ((f reply).run db (sent + 1) generated).result = .ok value := by
  cases hanswer : db.answer sent request with
  | error source =>
    rw [run_send_bind_error hanswer]
    constructor
    · intro hvalue
      cases hvalue
    · rintro ⟨reply, hreply, -⟩
      cases hreply
  | ok reply =>
    rw [run_send_bind_ok hanswer]
    constructor
    · intro hvalue
      exact ⟨reply, rfl, hvalue⟩
    · rintro ⟨reply', hreply, hvalue⟩
      cases hreply
      exact hvalue

end

end

/-- A session that starts with a request sends it, whatever the answer. -/
theorem exists_run_send_bind (db : Database) (request : Request) (refusal : Refusal)
    (f : Reply → Session β) (sent generated : Nat) :
    ∃ rest, ((Session.send request refusal >>= f).run db sent generated).requests
      = request :: rest := ⟨_, rfl⟩

/-! ## Sessions that run to their end -/

/-- Whenever it is run against the database, the session sends these requests and returns a
value. -/
def Completes (db : Database) (session : Session α) (requests : List Request) : Prop :=
  ∀ sent generated, (session.run db sent generated).requests = requests ∧
    ∃ value, (session.run db sent generated).result = .ok value

section

variable {db : Database} {session : Session α} {f : α → Session β} {requests more : List Request}

/-- Two sessions that complete, the one behind the other, send what both send. -/
theorem Completes.bind (h : session.Completes db requests)
    (hf : ∀ value, (f value).Completes db more) :
    (session >>= f).Completes db (requests ++ more) := by
  intro sent generated
  obtain ⟨hrequests, value, hvalue⟩ := h sent generated
  obtain ⟨hmore, result, hresult⟩ := hf value
    (sent + (session.run db sent generated).requests.length)
    (session.run db sent generated).generated
  rw [run_bind_ok hvalue]
  exact ⟨congrArg₂ (· ++ ·) hrequests hmore, result, hresult⟩

theorem completes_pure (value : α) : (pure value : Session α).Completes db [] :=
  fun _ _ => ⟨rfl, value, rfl⟩

theorem completes_log (speaker : Speaker) (level : Level) (message : String) :
    (Session.log speaker level message).Completes db [] :=
  fun _ _ => ⟨rfl, (), rfl⟩

/-- A request completes where the database answers it. -/
theorem completes_send (h : ∀ n request, db.Answers n request) (request : Request)
    (refusal : Refusal) : (Session.send request refusal).Completes db [request] := by
  intro sent generated
  obtain ⟨reply, hreply⟩ := h sent request
  have hrun : (Session.send request refusal >>= .done).run db sent generated =
      ⟨[request], [], generated, .ok reply⟩ := run_send_bind_ok hreply
  rw [bind_done] at hrun
  exact ⟨by rw [hrun], reply, by rw [hrun]⟩

/-- The same for each element of a list, one after the other. -/
theorem completes_forM {γ : Type} {l : List γ} {g : γ → Session Unit} {sends : γ → List Request}
    (h : ∀ a ∈ l, (g a).Completes db (sends a)) : (l.forM g).Completes db (l.flatMap sends) := by
  induction l with
  | nil => exact completes_pure ()
  | cons a l ih =>
    rw [List.flatMap_cons]
    exact (h a List.mem_cons_self).bind fun _ => ih fun b hb => h b (List.mem_cons_of_mem _ hb)

end

/-! ## What a session can send -/

/-- Every request that the session sends, whatever it is answered, has a property. -/
def Sends (P : Request → Prop) : Session α → Prop
  | .done _ | .fail _ => True
  | .note _ next => next.Sends P
  | .generate next => ∀ id, (next id).Sends P
  | .ask request next => P request ∧ ∀ answer, (next answer).Sends P

section

variable {P : Request → Prop} {session : Session α} {f : α → Session β}

/-- What a session may send is all that a run of it sends. -/
theorem Sends.run (h : session.Sends P) (db : Database) (sent generated : Nat) :
    ∀ request ∈ (session.run db sent generated).requests, P request := by
  induction session generalizing sent generated with
  | done value => simp [Session.run]
  | fail error => simp [Session.run]
  | note event next ih => exact ih h sent generated
  | generate next ih => exact ih _ (h _) sent (generated + 1)
  | ask asked next ih =>
    exact List.forall_mem_cons.mpr ⟨h.1, ih _ (h.2 _) (sent + 1) generated⟩

/-- Two sessions send what either of them does. -/
theorem Sends.bind (h : session.Sends P) (hf : ∀ value, (f value).Sends P) :
    (session >>= f).Sends P := by
  induction session with
  | done value => exact hf value
  | fail error => trivial
  | note event next ih => exact ih h
  | generate next ih => exact fun id => ih id (h id)
  | ask request next ih => exact ⟨h.1, fun answer => ih answer (h.2 answer)⟩

/-- A weaker property holds of the same requests. -/
theorem Sends.imp {Q : Request → Prop} (h : session.Sends P)
    (hPQ : ∀ request, P request → Q request) : session.Sends Q := by
  induction session with
  | done value => trivial
  | fail error => trivial
  | note event next ih => exact ih h
  | generate next ih => exact fun id => ih id (h id)
  | ask request next ih => exact ⟨hPQ request h.1, fun answer => ih answer (h.2 answer)⟩

/-- A check sends nothing, and the rest goes on from what it accepts. -/
theorem Sends.check {check : Except Error α} (hf : ∀ value, check = .ok value → (f value).Sends P) :
    ((liftM check : Session α) >>= f).Sends P := by
  cases check with
  | error error => trivial
  | ok value => exact hf value rfl

/-- A check sends nothing. -/
theorem Sends.lift {check : Except Error α} : (liftM check : Session α).Sends P := by
  cases check <;> trivial

/-- A message before a session adds no request. -/
theorem Sends.log_bind {speaker : Speaker} {level : Level} {message : String}
    {f : Unit → Session β} (h : (f ()).Sends P) :
    (Session.log speaker level message >>= f).Sends P := h

/-- A single request is all that is sent. -/
theorem Sends.send {request : Request} {refusal : Refusal} (h : P request) :
    (Session.send request refusal).Sends P := by
  refine ⟨h, fun answer => ?_⟩
  cases answer with
  | ok reply => trivial
  | error source =>
    -- Only messages come before the error.
    show (abort (refusal source).1 (refusal source).2 : Session Reply).Sends P
    induction (refusal source).1 with
    | nil => trivial
    | cons event events ih => exact ih

/-- The same for each element of a list. -/
theorem Sends.forM {γ : Type} {l : List γ} {g : γ → Session Unit} (h : ∀ a ∈ l, (g a).Sends P) :
    (l.forM g).Sends P := by
  induction l with
  | nil => trivial
  | cons a l ih =>
    obtain ⟨ha, hl⟩ := List.forall_mem_cons.mp h
    exact ha.bind fun _ => ih hl

end

end Session

end VectorTable
