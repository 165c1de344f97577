/-
What a connection is answered with. However the bytes of a peer go on, they are whole frames and a
remnant, in which the next frame is not all there or has a length above the limit (`exists_frames`).
Each whole frame is a turn: one that holds a request calls the handler, and each is answered with one
response, in the order of the frames. Main statement: `one_response_per_frame`.
-/
import Muster.Proofs.Wire.Request
import Muster.Proofs.Wire.Stream
import Muster.Wire.Server

namespace Muster.Wire.Server

open Muster.Wire.Frame (maxSize writeLength lengthOf tooLarge)
open Muster.Wire.Stream (frames frames_cons)

variable {σ : Type} {handle : Handler σ} {s s' s₁ : σ} {bytes rest payload : List UInt8}
  {ended : Except Fault Unit}

/-! ## What a peer sends -/

/-- Bytes in which no whole frame stands, and how a connection ends at them: the length is not all there,
or the payload is not, or the length is above the limit, whatever follows it. -/
inductive Remnant : List UInt8 → Except Fault Unit → Prop
  | length {bytes : List UInt8} : bytes.length < 4 → Remnant bytes (.ok ())
  | payload {a b c d : UInt8} {rest : List UInt8} : lengthOf a b c d ≤ maxSize →
      rest.length < lengthOf a b c d → Remnant (a :: b :: c :: d :: rest) (.ok ())
  | overlong {a b c d : UInt8} {rest : List UInt8} : maxSize < lengthOf a b c d →
      Remnant (a :: b :: c :: d :: rest) (.error (tooLarge (lengthOf a b c d)))

theorem Remnant.read (h : Remnant bytes ended) :
    ∃ e, Frame.read bytes = .error e ∧ endOf e = ended := by
  cases h with
  | length hlen =>
    match bytes, hlen with
    | [], _ | [_], _ | [_, _], _ | [_, _, _], _ => exact ⟨_, rfl, rfl⟩
  | payload hle hlt =>
    refine ⟨Frame.lost "reading data", ?_, rfl⟩
    simp only [Frame.read, if_neg (Nat.not_lt.2 hle), if_pos hlt]
  | @overlong a b c d rest hlt =>
    refine ⟨tooLarge (lengthOf a b c d), ?_, rfl⟩
    simp only [Frame.read, if_pos hlt]

theorem remnant_of_read {e : Fault} (h : Frame.read bytes = .error e) : Remnant bytes (endOf e) := by
  match bytes with
  | [] | [_] | [_, _] | [_, _, _] => cases h; exact .length (by simp)
  | a :: b :: c :: d :: rest =>
    simp only [Frame.read] at h
    split at h
    · rename_i hlt
      cases h
      exact .overlong hlt
    · rename_i hle
      split at h
      · rename_i hlt
        cases h
        exact .payload (Nat.not_lt.1 hle) hlt
      · cases h

/-- Any bytes are whole frames and a remnant. -/
theorem exists_frames (bytes : List UInt8) : ∃ payloads rest ended,
    bytes = frames payloads ++ rest ∧ (∀ p ∈ payloads, p.length ≤ maxSize) ∧ Remnant rest ended := by
  cases hread : Frame.read bytes with
  | error e => exact ⟨[], bytes, endOf e, rfl, nofun, remnant_of_read hread⟩
  | ok out =>
    obtain ⟨payload, rest⟩ := out
    have hshorter := Frame.read_length_lt hread
    obtain ⟨hle, hbytes⟩ := Frame.of_read hread
    obtain ⟨payloads, rest', ended, hrest, hsize, hremnant⟩ := exists_frames rest
    refine ⟨payload :: payloads, rest', ended, ?_, List.forall_mem_cons.2 ⟨hle, hsize⟩, hremnant⟩
    rw [hbytes, hrest, frames_cons]
    simp only [List.append_assoc]
termination_by bytes.length
decreasing_by exact hshorter

/-! ## Turns -/

/-- A whole frame, the call that it has led to with what the handler has made of it, and what it is
answered with. -/
structure Turn where
  payload : List UInt8
  call : Option (Request × Except Fault Response)
  response : Response

/-- The response finds room in a frame. -/
def Turn.Fits (t : Turn) : Prop := t.response.encode.length ≤ maxSize

/-- What a request is answered with: what the handler has made of it, or its fault under the same id. -/
def reply (r : Request) : Except Fault Response → Response
  | .ok response => response
  | .error e => .ofFault r.id e

/-- What the frames lead to, one after another. One that holds no request calls nobody, and is answered
with a failure without code and with no id; the others are answered with what their one call comes to. -/
inductive Course (handle : Handler σ) : σ → List Turn → σ → Prop
  | rest (s : σ) : Course handle s [] s
  | unread {s s' : σ} {payload : List UInt8} {e : Fault} {turns : List Turn} :
      Request.decode payload = .error e → Course handle s turns s' →
      Course handle s (⟨payload, none, .ofText 0 e.message⟩ :: turns) s'
  | called {s s₁ s' : σ} {payload : List UInt8} {r : Request} {outcome : Except Fault Response}
      {turns : List Turn} : Request.decode payload = .ok r → handle r s = (outcome, s₁) →
      Course handle s₁ turns s' →
      Course handle s (⟨payload, some (r, outcome), reply r outcome⟩ :: turns) s'

/-- Whatever frames come, there is a course for them. -/
theorem exists_course (handle : Handler σ) (payloads : List (List UInt8)) (s : σ) :
    ∃ turns s', turns.map (·.payload) = payloads ∧ Course handle s turns s' := by
  induction payloads generalizing s with
  | nil => exact ⟨[], s, rfl, .rest s⟩
  | cons p payloads ih =>
    cases hread : Request.decode p with
    | error e =>
      obtain ⟨turns, s', hmap, hcourse⟩ := ih s
      refine ⟨_ :: turns, s', ?_, .unread hread hcourse⟩
      rw [List.map_cons, hmap]
    | ok r =>
      rcases hcall : handle r s with ⟨outcome, s₁⟩
      obtain ⟨turns, s', hmap, hcourse⟩ := ih s₁
      refine ⟨_ :: turns, s', ?_, .called hread hcall hcourse⟩
      rw [List.map_cons, hmap]

/-- The first turn is what the server makes of the first frame. -/
theorem Course.first {t : Turn} {turns : List Turn} (h : Course handle s (t :: turns) s') :
    ∃ s₁, answer handle t.payload s = (t.response, s₁) ∧ Course handle s₁ turns s' := by
  unfold answer
  cases h with
  | unread hread hrest => exact ⟨s, by rw [hread], hrest⟩
  | @called _ s₁ _ _ r outcome _ hread hcall hrest =>
    refine ⟨s₁, ?_, hrest⟩
    cases outcome with
    | ok response => simp only [hread, hcall, reply]
    | error e => simp only [hread, hcall, reply]

/-- The same service, which also writes down what it is called for and what it makes of it. -/
def logged (handle : Handler σ) : Handler (σ × List (Request × Except Fault Response)) := fun r s =>
  ((handle r s.1).1, (handle r s.1).2, s.2 ++ [(r, (handle r s.1).1)])

/-- The calls that are written down are those of the turns. -/
theorem Course.logged {turns : List Turn} (h : Course handle s turns s')
    (calls : List (Request × Except Fault Response)) :
    Course (logged handle) (s, calls) turns (s', calls ++ turns.filterMap (·.call)) := by
  induction h generalizing calls with
  | rest s => simpa using Course.rest (s, calls)
  | unread hread _ ih => exact .unread hread (ih calls)
  | @called s s₁ s' payload r outcome turns hread hcall _ ih =>
    have hlog : Server.logged handle r (s, calls) = (outcome, s₁, calls ++ [(r, outcome)]) := by
      simp [Server.logged, hcall]
    have hrest := ih (calls ++ [(r, outcome)])
    rw [List.append_assoc] at hrest
    exact .called hread hlog hrest

/-! ## Serving -/

theorem serve_remnant (h : Remnant rest ended) (s : σ) :
    serve handle rest s = { ended, state := s } := by
  obtain ⟨e, hread, rfl⟩ := h.read
  rw [serve]
  split <;> simp_all

/-- A whole frame is answered before anything behind it is looked at. -/
theorem serve_frame (hsize : payload.length ≤ maxSize) {response : Response}
    (hanswer : answer handle payload s = (response, s₁)) (rest : List UInt8) :
    serve handle (writeLength payload.length ++ (payload ++ rest)) s =
      match Frame.write response.encode with
      | .error e => { ended := .error e, state := s₁ }
      | .ok frame => { serve handle rest s₁ with sent := frame ++ (serve handle rest s₁).sent } := by
  have hread : Frame.read (writeLength payload.length ++ (payload ++ rest)) = .ok (payload, rest) := by
    rw [← List.append_assoc]
    exact Frame.read_write (Frame.write_eq_ok.2 ⟨hsize, rfl⟩) rest
  rw [serve]
  split
  · rename_i herror
    cases hread.symm.trans herror
  · rename_i hok
    cases hread.symm.trans hok
    cases hwrite : Frame.write response.encode with
    | error e => simp only [hanswer, hwrite]
    | ok frame => simp only [hanswer, hwrite]

/-- What the peer gets for turns whose responses all fit: theirs, and then what it gets for the rest. -/
theorem Course.serve_append {turns : List Turn} (h : Course handle s turns s')
    (hsize : ∀ t ∈ turns, t.payload.length ≤ maxSize) (hfit : ∀ t ∈ turns, t.Fits)
    (rest : List UInt8) :
    serve handle (frames (turns.map (·.payload)) ++ rest) s =
      { serve handle rest s' with
        sent := frames (turns.map (·.response.encode)) ++ (serve handle rest s').sent } := by
  induction turns generalizing s with
  | nil => cases h; rfl
  | cons t turns ih =>
    obtain ⟨s₁, hanswer, hrest⟩ := h.first
    obtain ⟨hp, hsize⟩ := List.forall_mem_cons.1 hsize
    obtain ⟨ht, hfit⟩ := List.forall_mem_cons.1 hfit
    have hwrite := Frame.write_eq_ok.2 ⟨ht, rfl⟩
    rw [List.map_cons, List.map_cons, frames_cons, frames_cons, List.append_assoc, List.append_assoc,
      serve_frame hp hanswer, hwrite, ih hrest hsize hfit]
    simp only [List.append_assoc]

theorem Course.serve_eq {turns : List Turn} (h : Course handle s turns s')
    (hsize : ∀ t ∈ turns, t.payload.length ≤ maxSize) (hfit : ∀ t ∈ turns, t.Fits)
    (hrest : Remnant rest ended) :
    serve handle (frames (turns.map (·.payload)) ++ rest) s =
      { sent := frames (turns.map (·.response.encode)), ended, state := s' } := by
  rw [h.serve_append hsize hfit, serve_remnant hrest, List.append_nil]

theorem Course.split {before after : List Turn} (h : Course handle s (before ++ after) s') :
    ∃ s₁, Course handle s before s₁ ∧ Course handle s₁ after s' := by
  induction before generalizing s with
  | nil => exact ⟨s, .rest s, h⟩
  | cons t before ih =>
    cases h with
    | unread hread hrest =>
      obtain ⟨s₁, hbefore, hafter⟩ := ih hrest
      exact ⟨s₁, .unread hread hbefore, hafter⟩
    | called hread hcall hrest =>
      obtain ⟨s₁, hbefore, hafter⟩ := ih hrest
      exact ⟨s₁, .called hread hcall hbefore, hafter⟩

/-- A response that finds no room ends the connection, whatever follows its frame. -/
theorem Course.serve_tooLarge {before : List Turn} {t : Turn} (h : Course handle s (before ++ [t]) s')
    (hsize : ∀ b ∈ before ++ [t], b.payload.length ≤ maxSize) (hfit : ∀ b ∈ before, b.Fits)
    (ht : ¬ t.Fits) (rest : List UInt8) :
    serve handle (frames ((before ++ [t]).map (·.payload)) ++ rest) s =
      { sent := frames (before.map (·.response.encode)),
        ended := .error (tooLarge t.response.encode.length), state := s' } := by
  obtain ⟨s₁, hbefore, hlast⟩ := h.split
  obtain ⟨s₂, hanswer, hdone⟩ := hlast.first
  cases hdone
  have hwrite : Frame.write t.response.encode = .error (tooLarge t.response.encode.length) :=
    if_pos (Nat.not_le.1 ht)
  have hp := hsize t (List.mem_append_right _ (List.mem_singleton_self t))
  have hframes : frames ((before ++ [t]).map (·.payload)) ++ rest =
      frames (before.map (·.payload)) ++
        (writeLength t.payload.length ++ (t.payload ++ rest)) := by
    simp [frames]
  rw [hframes, hbefore.serve_append (fun b hb => hsize b (List.mem_append_left _ hb)) hfit,
    serve_frame hp hanswer, hwrite, List.append_nil]

/-! ## The law of the server -/

/-- A peer sends any bytes and hangs up, and the handler makes of its calls whatever it makes of them.
The bytes are whole frames and a remnant, and there is a course for the frames. As long as their responses
find room, exactly those are sent, in the order of the frames; the handler has been called for the frames
that hold a request, once for each, and for nothing else; and the connection ends as the remnant has it,
well where a frame is cut off and with an error where a length is above the limit. A response that finds
no room ends the connection behind those before it, and no call follows. -/
theorem one_response_per_frame (handle : Handler σ) (s : σ) :
    (∀ bytes, ∃ turns s' rest ended, Course handle s turns s' ∧
      (∀ t ∈ turns, t.payload.length ≤ maxSize) ∧ Remnant rest ended ∧
      bytes = frames (turns.map (·.payload)) ++ rest) ∧
    (∀ turns s' rest ended, Course handle s turns s' →
      (∀ t ∈ turns, t.payload.length ≤ maxSize) → Remnant rest ended → (∀ t ∈ turns, t.Fits) →
      serve handle (frames (turns.map (·.payload)) ++ rest) s =
        { sent := frames (turns.map (·.response.encode)), ended, state := s' } ∧
      serve (logged handle) (frames (turns.map (·.payload)) ++ rest) (s, []) =
        { sent := frames (turns.map (·.response.encode)), ended,
          state := (s', turns.filterMap (·.call)) }) ∧
    ∀ before t s' rest, Course handle s (before ++ [t]) s' →
      (∀ b ∈ before ++ [t], b.payload.length ≤ maxSize) → (∀ b ∈ before, b.Fits) → ¬ t.Fits →
      serve (logged handle) (frames ((before ++ [t]).map (·.payload)) ++ rest) (s, []) =
        { sent := frames (before.map (·.response.encode)),
          ended := .error (tooLarge t.response.encode.length),
          state := (s', (before ++ [t]).filterMap (·.call)) } := by
  refine ⟨?_, ?_, ?_⟩
  · intro bytes
    obtain ⟨payloads, rest, ended, hbytes, hsize, hrest⟩ := exists_frames bytes
    obtain ⟨turns, s', rfl, hcourse⟩ := exists_course handle payloads s
    exact ⟨turns, s', rest, ended, hcourse, List.forall_mem_map.1 hsize, hrest, hbytes⟩
  · intro turns s' rest ended h hsize hrest hfit
    exact ⟨h.serve_eq hsize hfit hrest, (h.logged []).serve_eq hsize hfit hrest⟩
  · intro before t s' rest h hsize hfit ht
    exact (h.logged []).serve_tooLarge hsize hfit ht rest

/-- A service with room for one call. -/
def once : Handler Nat := fun r n =>
  (if n = 0 then .ok (.ofResult r.id .null) else .error .capacity, n + 1)

/-- A request, a frame that holds none, and the request again. -/
def knocks : List Turn :=
  [⟨Request.spelled, some (Request.ping, .ok (.ofResult 7 .null)), .ofResult 7 .null⟩,
    ⟨[120], none, .ofText 0 (Fault.json .malformed).message⟩,
    ⟨Request.spelled, some (Request.ping, .error .capacity), .ofFault 7 .capacity⟩]

theorem knocks_course : Course once 0 knocks 2 := by
  have hunread : Request.decode [120] = .error (.json .malformed) := rfl
  exact .called Request.decode_spelled rfl
    (.unread hunread (.called Request.decode_spelled rfl (.rest 2)))

/-- Behind the three, a length is announced whose payload does not come. -/
theorem third_is_refused :
    serve (logged once) (frames (knocks.map (·.payload)) ++ [0, 0, 0, 9, 123]) (0, []) =
      { sent := frames (knocks.map (·.response.encode)), ended := .ok (),
        state := (2, [(Request.ping, .ok (.ofResult 7 .null)), (Request.ping, .error .capacity)]) } := by
  have hsize : ∀ t ∈ knocks, t.payload.length ≤ maxSize := by decide +kernel
  have hfit : ∀ t ∈ knocks, t.response.encode.length ≤ maxSize := by decide +kernel
  exact ((one_response_per_frame once 0).2.1 knocks 2 _ _ knocks_course hsize
    (.payload (by decide) (by decide)) hfit).2

end Muster.Wire.Server
