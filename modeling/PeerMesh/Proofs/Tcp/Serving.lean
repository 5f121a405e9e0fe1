import PeerMesh.Proofs.Course
import PeerMesh.Proofs.Tcp.Intake
import PeerMesh.Proofs.Tcp.Sound
import PeerMesh.Proofs.Wire.Streams

/-!
# Serving a client that may send anything

The server reads requests up to the first fault. Every request has a handler of its own, they end in any order, and
each writes its answer when it ends.

* `Service`, `Service.step?` : the server's side of one connection, with the octets that have yet to arrive;
* `Job.reply?`, `Service.replies_set` : what is due for a request once its handler has ended;
* `Service.Sound`, `Service.Sound.step` : what has a handler or will have one are the requests of the stream, and what
  is written are the frames of the answers;
* `Service.Sound.exists_served` : every request gets its handler;
* `served_stream` : both together, for any octets in any chunks.
-/

namespace PeerMesh.Tcp

/-- The server's side of a connection. -/
structure Service where
  /-- The chunks that have yet to arrive. -/
  incoming : List Bytes
  intake : Intake := {}
  /-- The requests that have been read and have no handler yet. -/
  requests : List (Frame Request) := []
  jobs : List Job := []
  /-- What has been written to the client. -/
  written : Bytes := []

inductive ServiceMove where
  /-- The next chunk arrives. -/
  | arrive
  /-- The next request gets a handler. -/
  | invoke
  /-- A handler ends. -/
  | answer (job : Nat) (response : Response)
  deriving DecidableEq

namespace Service

def start (chunks : List Bytes) : Service := { incoming := chunks }

def step? (s : Service) : ServiceMove → Option Service
  | .arrive =>
    match s.incoming with
    | [] => none
    | chunk :: chunks =>
      let (found, intake) := s.intake.feed (Wire.frame Wire.request) chunk
      some { s with incoming := chunks, intake, requests := s.requests ++ found }
  | .invoke =>
    match s.requests with
    | [] => none
    | request :: requests => some { s with requests, jobs := s.jobs ++ [{ frame := request }] }
  | .answer k response => do
    let job ← s.jobs[k]?
    if job.answer.isSome then none
    else
      some { s with
        jobs := s.jobs.set k { job with answer := some response }
        written := s.written ++ Intake.answer job.frame response }

def run : List ServiceMove → Service → Option Service
  | [], s => some s
  | move :: moves, s => (s.step? move).bind (run moves)

/-- A move that is possible, by what it comes to. -/
inductive Step (s : Service) : ServiceMove → Service → Prop where
  | arrived {chunk : Bytes} {chunks : List Bytes} (hincoming : s.incoming = chunk :: chunks) :
      Step s .arrive
        { s with
          incoming := chunks
          intake := (s.intake.feed (Wire.frame Wire.request) chunk).2
          requests := s.requests ++ (s.intake.feed (Wire.frame Wire.request) chunk).1 }
  | invoked {request : Frame Request} {requests : List (Frame Request)} (hrequests : s.requests = request :: requests) :
      Step s .invoke { s with requests, jobs := s.jobs ++ [{ frame := request }] }
  | answered {k : Nat} {response : Response} {job : Job} (hk : s.jobs[k]? = some job) (hopen : job.answer = none) :
      Step s (.answer k response)
        { s with
          jobs := s.jobs.set k { job with answer := some response }
          written := s.written ++ Intake.answer job.frame response }

variable {s s' : Service} {move : ServiceMove}

theorem step_of_step? (hstep : s.step? move = some s') : s.Step move s' := by
  cases move with
  | arrive =>
    simp only [step?] at hstep
    split at hstep
    · cases hstep
    · rename_i hincoming
      cases hstep
      exact .arrived hincoming
  | invoke =>
    simp only [step?] at hstep
    split at hstep
    · cases hstep
    · rename_i hrequests
      cases hstep
      exact .invoked hrequests
  | answer k response =>
    simp only [step?, Option.bind_eq_bind, Option.bind_eq_some_iff] at hstep
    obtain ⟨job, hk, hstep⟩ := hstep
    split at hstep
    · cases hstep
    · rename_i hopen
      cases hstep
      exact .answered hk (Option.not_isSome_iff_eq_none.1 hopen)

end Service

/-! ## What is due -/

/-- What is due for a request: once its handler has ended, the answer with the number of the request. -/
def Job.reply? (job : Job) : Option (Frame Response) := job.answer.map fun response => ⟨job.frame.callId, response⟩

theorem replies_set {jobs : List Job} {k : Nat} {job : Job} (hk : jobs[k]? = some job) (hopen : job.answer = none)
    (response : Response) :
    ((jobs.set k { job with answer := some response }).filterMap Job.reply?).Perm
      (jobs.filterMap Job.reply? ++ [⟨job.frame.callId, response⟩]) := by
  induction jobs generalizing k with
  | nil => cases hk
  | cons first jobs ih =>
    cases k with
    | zero =>
      cases hk
      have hnone : job.reply? = none := by rw [Job.reply?, hopen]; rfl
      rw [List.filterMap_cons_none hnone]
      exact (List.perm_append_singleton _ _).symm
    | succ k =>
      have ih := ih hk
      rw [List.set_cons_succ]
      cases hfirst : first.reply? with
      | none =>
        rw [List.filterMap_cons_none hfirst, List.filterMap_cons_none hfirst]
        exact ih
      | some reply =>
        rw [List.filterMap_cons_some hfirst, List.filterMap_cons_some hfirst]
        exact ih.cons reply

/-- What is written for a request is its frame, or nothing if that is too large. -/
theorem answer_eq_frames (request : Frame Request) (response : Response) :
    Intake.answer request response = Wire.frames (Wire.frame Wire.response) [⟨request.callId, response⟩] := by
  have h := Wire.sendOnto_eq (f := Wire.frame Wire.response) [] ⟨request.callId, response⟩
  unfold Wire.sendOnto at h
  unfold Intake.answer
  cases hsend : Wire.send (Wire.frame Wire.response) ⟨request.callId, response⟩ with
  | ok bytes =>
    rw [hsend] at h
    exact congrArg Prod.snd h
  | error e =>
    rw [hsend] at h
    exact congrArg Prod.snd h

theorem frames_append {α : Type} {f : Wire.Format α} (xs ys : List α) :
    Wire.frames f (xs ++ ys) = Wire.frames f xs ++ Wire.frames f ys := by
  unfold Wire.frames
  rw [List.filter_append, List.map_append, List.flatMap_append]

namespace Service

variable {s s' : Service} {move : ServiceMove} {chunks : List Bytes}

/-! ## What the server keeps straight -/

/-- The requests of the stream are those that have a handler, those that wait for one, and those that have yet to be
read. What has been written are the frames of the answers that are due, in some order. -/
structure Sound (chunks : List Bytes) (s : Service) : Prop where
  requests : s.jobs.map Job.frame ++ s.requests ++
    Intake.messagesFrom (Wire.frame Wire.request) s.intake s.incoming = Intake.messages (Wire.frame Wire.request) chunks
  written : ∃ replies : List (Frame Response), replies.Perm (s.jobs.filterMap Job.reply?) ∧
    s.written = Wire.frames (Wire.frame Wire.response) replies

theorem Sound.start (chunks : List Bytes) : Sound chunks (start chunks) where
  requests := rfl
  written := ⟨[], .refl _, rfl⟩

theorem Sound.step (h : s.Sound chunks) (hstep : s.Step move s') : s'.Sound chunks := by
  obtain ⟨replies, hperm, hwritten⟩ := h.written
  cases hstep with
  | @arrived chunk rest hincoming =>
    refine ⟨?_, replies, hperm, hwritten⟩
    rw [← h.requests, hincoming, Intake.messagesFrom, List.append_assoc, List.append_assoc, List.append_assoc]
  | @invoked request rest hrequests =>
    refine ⟨?_, replies, ?_, hwritten⟩
    · rw [← h.requests, hrequests, List.map_append, List.append_assoc _ _ rest]
      rfl
    · rw [List.filterMap_append]
      exact hperm.trans (.of_eq (List.append_nil _).symm)
  | @answered k response job hk hopen =>
    refine ⟨?_, replies ++ [⟨job.frame.callId, response⟩], ?_, ?_⟩
    · rw [← h.requests]
      show (s.jobs.set k _).map Job.frame ++ _ ++ _ = _
      rw [List.map_set, set_of_some_self (by rw [List.getElem?_map, hk]; rfl)]
    · exact (hperm.append_right _).trans (replies_set hk hopen response).symm
    · rw [frames_append, ← hwritten, answer_eq_frames]

theorem Sound.run {moves : List ServiceMove} (h : s.Sound chunks) (hrun : run moves s = some s') : s'.Sound chunks := by
  induction moves generalizing s with
  | nil =>
    cases hrun
    exact h
  | cons move moves ih =>
    obtain ⟨s₁, hstep, hrun⟩ := Option.bind_eq_some_iff.1 hrun
    exact ih (h.step (step_of_step? hstep)) hrun

/-! ## Every request gets its handler -/

/-- Once all has arrived that the client sends, no more requests are read. -/
theorem Step.idle (hstep : s.Step move s') (hincoming : s.incoming = []) :
    s'.incoming = [] ∧ s'.requests.length ≤ s.requests.length := by
  cases hstep with
  | arrived hsome => cases hincoming.symm.trans hsome
  | invoked hrequests => exact ⟨hincoming, by rw [hrequests]; exact Nat.le_succ _⟩
  | answered => exact ⟨hincoming, Nat.le_refl _⟩

theorem exists_arrived {c : Course step?} (harrive : c.Fair (· = .arrive)) : ∃ i, (c.state i).incoming = [] := by
  obtain ⟨i, -, -, hzero⟩ := Course.exists_rank_eq_zero (c := c) (p := fun _ => True) (i := 0)
    (fun s => s.incoming.length) (fun _ move => move = .arrive)
    (by
      intro s move s' _ hstep
      refine ⟨trivial, ?_⟩
      cases step_of_step? hstep with
      | arrived hincoming => rw [hincoming]; exact Nat.le_succ _
      | invoked => exact Nat.le_refl _
      | answered => exact Nat.le_refl _)
    (by
      intro s r _ hr
      obtain ⟨chunk, chunks, hincoming⟩ := List.exists_cons_of_length_eq_add_one hr
      exact ⟨_, rfl, by simp [step?, hincoming]⟩)
    (by
      rintro s move s' r _ hr rfl hstep
      cases step_of_step? hstep with
      | arrived hincoming =>
        rw [hincoming, List.length_cons] at hr
        exact Nat.le_of_eq (Nat.succ.inj hr))
    (fun _ => harrive) trivial
  exact ⟨i, List.eq_nil_of_length_eq_zero hzero⟩

theorem exists_served {c : Course step?} (harrive : c.Fair (· = .arrive)) (hinvoke : c.Fair (· = .invoke)) :
    ∃ i, ∀ j, i ≤ j → (c.state j).incoming = [] ∧ (c.state j).requests = [] := by
  obtain ⟨i, hi⟩ := exists_arrived harrive
  obtain ⟨k, -, hk, hzero⟩ := Course.exists_rank_eq_zero (c := c) (p := fun s => s.incoming = []) (i := i)
    (fun s => s.requests.length) (fun _ move => move = .invoke)
    (fun s move s' hincoming hstep => (step_of_step? hstep).idle hincoming)
    (by
      intro s r _ hr
      obtain ⟨request, requests, hrequests⟩ := List.exists_cons_of_length_eq_add_one hr
      exact ⟨_, rfl, by simp [step?, hrequests]⟩)
    (by
      rintro s move s' r _ hr rfl hstep
      cases step_of_step? hstep with
      | invoked hrequests =>
        rw [hrequests, List.length_cons] at hr
        exact Nat.le_of_eq (Nat.succ.inj hr))
    (fun _ => hinvoke) hi
  refine ⟨k, fun j hkj => c.always (p := fun s => s.incoming = [] ∧ s.requests = []) ?_
    ⟨hk, List.eq_nil_of_length_eq_zero hzero⟩ hkj⟩
  intro s move s' ⟨hincoming, hrequests⟩ hstep
  obtain ⟨hincoming', hlength⟩ := (step_of_step? hstep).idle hincoming
  rw [hrequests] at hlength
  exact ⟨hincoming', List.eq_nil_of_length_eq_zero (Nat.le_zero.1 hlength)⟩

/-- As soon as all has been read and handed over, the handlers are those of the leading run. -/
theorem Sound.frames_eq (h : s.Sound chunks) (hincoming : s.incoming = []) (hrequests : s.requests = []) :
    s.jobs.map Job.frame = Intake.messages (Wire.frame Wire.request) chunks := by
  rw [← h.requests, hincoming, hrequests]
  show _ = _ ++ [] ++ []
  rw [List.append_nil, List.append_nil]

end Service

/-- Whatever octets a client sends, in whatever chunks they arrive, and in whatever order the handlers end: the handler
is invoked once for each request of the leading run of the stream, in order, and for nothing else. What is written is,
in some order, one frame for each answer that is not too large, with the number of its request, and it is read back as
just these answers in whatever chunks it arrives. -/
theorem served_stream {chunks : List Bytes} {moves : List ServiceMove} {s : Service}
    (hrun : Service.run moves (.start chunks) = some s) :
    ∃ requests : List (Frame Request), IsLeadingRun (Wire.frame Wire.request) chunks.flatten requests ∧
      s.jobs.map Job.frame <+: requests ∧
      (s.incoming = [] → s.requests = [] → s.jobs.map Job.frame = requests) ∧
      (∀ c : Course Service.step?, c.state 0 = s → c.Fair (· = .arrive) → c.Fair (· = .invoke) →
        ∃ i, ∀ j, i ≤ j → (c.state j).jobs.map Job.frame = requests) ∧
      (∀ (k : Nat) (job : Job), s.jobs[k]? = some job → job.answer = none →
        ∀ response, ∃ s', s.step? (.answer k response) = some s') ∧
      ∃ replies : List (Frame Response), replies.Perm (s.jobs.filterMap Job.reply?) ∧
        s.written = Wire.frames (Wire.frame Wire.response) replies ∧
        ∀ out : List Bytes, out.flatten = s.written → Wire.receive (Wire.frame Wire.response) out =
          (replies.filter (Wire.Sendable (Wire.frame Wire.response) ·)).map .ok := by
  have h : s.Sound chunks := (Service.Sound.start chunks).run hrun
  obtain ⟨replies, hperm, hwritten⟩ := h.written
  refine ⟨Intake.messages (Wire.frame Wire.request) chunks, isLeadingRun_iff.2 rfl, ?_, h.frames_eq, ?_, ?_, replies,
    hperm, hwritten, fun out hout => ?_⟩
  · rw [← h.requests, List.append_assoc]
    exact List.prefix_append _ _
  · intro c hc harrive hinvoke
    obtain ⟨i, hi⟩ := Service.exists_served harrive hinvoke
    refine ⟨i, fun j hij => ?_⟩
    have hj : (c.state j).Sound chunks :=
      c.always (p := Service.Sound chunks) (i := 0) (fun s move s' hs hstep => hs.step (Service.step_of_step? hstep))
        (hc ▸ h) (Nat.zero_le j)
    exact hj.frames_eq (hi j hij).1 (hi j hij).2
  · intro k job hk hopen response
    simp [Service.step?, hk, hopen]
  · exact Wire.receive_frames (Wire.Kind.lawful (.frame .response)) (hout.trans hwritten)

/-- Two requests with one number, a payload that holds none, and another request, cut inside the first number. -/
def nuisance : List Bytes :=
  [[0, 0, 0, 12, 7, 0, 0],
    [0, 0, 0, 0, 0, 4, 0, 0, 0, 0, 0, 0, 12, 7, 0, 0, 0, 0, 0, 0, 0, 4, 0, 0, 0, 0, 0, 0, 1, 9,
      0, 0, 0, 12, 8, 0, 0, 0, 0, 0, 0, 0, 4, 0, 0, 0]]

theorem feed_nuisance :
    ∃ i j : Intake, Intake.feed (Wire.frame Wire.request) {} nuisance[0] = ([], i) ∧
      Intake.feed (Wire.frame Wire.request) i nuisance[1] = ([⟨7, .rtt⟩, ⟨7, .rtt⟩], j) := by
  have hfirst : (Wire.Receiver.feed {} nuisance[0]).drain = ([], some ⟨some 12, [7, 0, 0]⟩) :=
    Wire.Receiver.drain_of_wait rfl
  have hsecond : (Wire.Receiver.feed ⟨some 12, [7, 0, 0]⟩ nuisance[1]).drain =
      ([[7, 0, 0, 0, 0, 0, 0, 0, 4, 0, 0, 0], [7, 0, 0, 0, 0, 0, 0, 0, 4, 0, 0, 0], [9],
        [8, 0, 0, 0, 0, 0, 0, 0, 4, 0, 0, 0]], some {}) := by
    rw [Wire.Receiver.drain_of_payload rfl, Wire.Receiver.drain_of_payload rfl, Wire.Receiver.drain_of_payload rfl,
      Wire.Receiver.drain_of_payload rfl, Wire.Receiver.drain_of_wait rfl]
    rfl
  refine ⟨{ receiver := ⟨some 12, [7, 0, 0]⟩, sound := true }, { receiver := {}, sound := false }, ?_, ?_⟩
  · rw [Intake.feed, if_pos rfl, hfirst]
    rfl
  · rw [Intake.feed, if_pos rfl, hsecond]
    rfl

/-- Both requests are handled, and the handlers end in the other order. -/
def impatience : List ServiceMove :=
  [.arrive, .arrive, .invoke, .invoke, .answer 1 .empty, .answer 0 (.failure "busy")]

theorem served_nuisance :
    ∃ (s : Service) (replies : List (Frame Response)), Service.run impatience (.start nuisance) = some s ∧
      IsLeadingRun (Wire.frame Wire.request) nuisance.flatten [⟨7, .rtt⟩, ⟨7, .rtt⟩] ∧
      s.jobs.map Job.frame = [⟨7, .rtt⟩, ⟨7, .rtt⟩] ∧ replies.Perm [⟨7, .failure "busy"⟩, ⟨7, .empty⟩] ∧
      ∀ out : List Bytes, out.flatten = s.written → Wire.receive (Wire.frame Wire.response) out =
        (replies.filter (Wire.Sendable (Wire.frame Wire.response) ·)).map .ok := by
  obtain ⟨i, j, hfirst, hsecond⟩ := feed_nuisance
  have harrived : Service.step? (.start nuisance) .arrive = some { incoming := [nuisance[1]], intake := i } := by
    show some (let (found, intake) := Intake.feed (Wire.frame Wire.request) {} nuisance[0]
      ({ incoming := [nuisance[1]], intake, requests := found } : Service)) = _
    rw [hfirst]
  have hread : Service.step? { incoming := [nuisance[1]], intake := i } .arrive =
      some { incoming := [], intake := j, requests := [⟨7, .rtt⟩, ⟨7, .rtt⟩] } := by
    show some (let (found, intake) := Intake.feed (Wire.frame Wire.request) i nuisance[1]
      ({ incoming := [], intake, requests := found } : Service)) = _
    rw [hsecond]
  obtain ⟨s, hrun, hjobs, hincoming, hrequests⟩ :
      ∃ s, Service.run impatience (.start nuisance) = some s ∧
        s.jobs = [⟨⟨7, .rtt⟩, some (.failure "busy")⟩, ⟨⟨7, .rtt⟩, some .empty⟩] ∧ s.incoming = [] ∧
        s.requests = [] := by
    rw [impatience, Service.run, harrived, Option.bind_some, Service.run, hread]
    exact ⟨_, rfl, rfl, rfl, rfl⟩
  obtain ⟨requests, hleading, -, hall, -, -, replies, hperm, -, hread⟩ := served_stream hrun
  have hframes := hall hincoming hrequests
  rw [hjobs] at hframes hperm
  cases hframes
  exact ⟨s, replies, hrun, hleading, by rw [hjobs]; rfl, hperm, hread⟩

end PeerMesh.Tcp
