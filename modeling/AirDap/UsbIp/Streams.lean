import AirDap.Concurrency.Sequential
import AirDap.UsbIp.Flow

/-! The bytes that a session returns on the bulk endpoints are the responses of the device and
the bytes of its UART, in their order and without a gap. -/
namespace AirDap

/-- The data of a RET_SUBMIT for an input on an endpoint. -/
def SentPacket.inputData (ep : Word) : SentPacket → List Byte
  | .submit urb packet => if urb.ep = ep ∧ urb.direction = .input then packet.data else []
  | .unlink _ _ => []

namespace UsbState

/-- All data that were returned on an endpoint so far. -/
def returned (s : UsbState) (ep : Word) : List Byte := s.sent.flatMap (SentPacket.inputData ep)

variable {s t : UsbState} {urb : Urb} {data : List Byte} {status : ℤ}

theorem Same.returned (h : s.Same t) (ep : Word) : t.returned ep = s.returned ep := by
  rw [UsbState.returned, UsbState.returned, h.2.2.2]

theorem unlink_frame (h : s.unlink urb = (t, true)) :
    t.responses = s.responses ∧ t.notification = s.notification ∧
      t.pending = (s.pending.eraseP fun other => other.seq = urb.flags) ∧
      ∀ ep, t.returned ep = s.returned ep := by
  rcases s.unlink_cases urb with hcase | hcase
  · rw [hcase, Prod.mk.injEq] at h
    obtain ⟨rfl, -⟩ := h
    refine ⟨rfl, rfl, rfl, fun ep => ?_⟩
    simp [returned, SentPacket.inputData]
  · rw [hcase] at h
    cases h

theorem complete_returned_input (h : s.complete urb data 0 = (t, true))
    (hpresent : s.present urb = true) (hinput : urb.direction = .input) :
    t.returned urb.ep = s.returned urb.ep ++ data := by
  rcases s.complete_cases urb data 0 with ⟨hnot, -⟩ | ⟨-, hcase⟩ | ⟨-, hcase⟩
  · rw [hpresent] at hnot
    cases hnot
  · rw [hcase, Prod.mk.injEq] at h
    obtain ⟨rfl, -⟩ := h
    simp [returned, SentPacket.inputData, retSubmit, hinput]
  · rw [hcase] at h
    cases h

theorem complete_returned_other (h : s.complete urb data status = (t, true)) {ep : Word}
    (hother : urb.ep = ep → urb.direction = .input → data = []) :
    t.returned ep = s.returned ep := by
  rcases s.complete_cases urb data status with ⟨-, hcase⟩ | ⟨-, hcase⟩ | ⟨-, hcase⟩
  · rw [hcase, Prod.mk.injEq] at h
    rw [h.1]
  · rw [hcase, Prod.mk.injEq] at h
    obtain ⟨rfl, -⟩ := h
    have hnil : SentPacket.inputData ep (.submit urb (retSubmit urb data status)) = [] := by
      simp only [SentPacket.inputData, retSubmit]
      split_ifs with hurb hstatus
      · exact hother hurb.1 hurb.2
      · rfl
      · rfl
    simp [returned, hnil]
  · rw [hcase] at h
    cases h

theorem complete_frame_of_eq {ok : Bool} (h : s.complete urb data status = (t, ok)) :
    t.responses = s.responses ∧ t.notification = s.notification ∧ t.coding = s.coding ∧
      t.lineState = s.lineState := by
  have hframe := s.complete_frame urb data status
  rw [h] at hframe
  exact hframe

theorem deliver_conserves {response : List Byte} {rest : List (List Byte)}
    (hresponses : s.responses = response :: rest) (hurb : s.firstInput 1 = some urb)
    (h : s.deliver urb response rest = (t, true)) :
    t.returned 1 ++ t.responses.flatten = s.returned 1 ++ s.responses.flatten ∧
      t.returned 3 = s.returned 3 := by
  obtain ⟨-, hep, hinput⟩ := firstInput_spec hurb
  have hpresent : { s with responses := rest }.present urb = true := present_of_firstInput hurb
  obtain ⟨u, hcomplete, -, hsent, -, hflatten⟩ := deliver_cases h
  have hreturned : ∀ ep, t.returned ep = u.returned ep := by
    intro ep
    rw [returned, hsent, returned]
  have hone := complete_returned_input hcomplete hpresent hinput
  have hthree : u.returned 3 = s.returned 3 := complete_returned_other hcomplete (by
    intro heq
    rw [hep] at heq
    exact absurd heq (by decide))
  rw [hep] at hone
  refine ⟨?_, (hreturned 3).trans hthree⟩
  rw [hreturned, hone, hflatten, hresponses, List.append_assoc,
    ← List.append_assoc (response.take _), List.take_append_drop]
  rfl

theorem flush_conserves (h : s.flush = (t, true)) :
    t.returned 1 ++ t.responses.flatten = s.returned 1 ++ s.responses.flatten ∧
      t.returned 3 = s.returned 3 := by
  have hinduct := flush_induct (P := fun u ok => ok = true →
      u.returned 1 ++ u.responses.flatten = s.returned 1 ++ s.responses.flatten ∧
        u.returned 3 = s.returned 3) (s := s) ?_ ?_ ?_ fun _ => ⟨rfl, rfl⟩
  · rw [h] at hinduct
    exact hinduct rfl
  · intro u urb response rest hu hresponses hurb hok
    obtain ⟨hone, hthree⟩ := deliver_conserves hresponses hurb (Prod.ext rfl hok)
    exact ⟨hone.trans (hu rfl).1, hthree.trans (hu rfl).2⟩
  · intro u hu _
    exact hu rfl
  · intro u urb hu hurb _ hok
    obtain ⟨-, hep, -⟩ := firstInput_spec hurb
    have heq : ({ u with
          notification := u.notification.drop (min urb.size u.notification.length) }).complete urb
        (u.notification.take (min urb.size u.notification.length)) 0 = (_, true) :=
      Prod.ext rfl hok
    have hother : ∀ ep : Word, ep ≠ 2 → _ := fun ep hne =>
      complete_returned_other heq fun h => absurd (h.symm.trans hep) hne
    rw [hother 1 (by decide), hother 3 (by decide), (complete_frame_of_eq heq).1]
    exact hu rfl

end UsbState

/-- The conservation of the bytes and of the order of the requests. -/
structure Flow.Conserved (f : Flow) : Prop where
  dap : f.state.returned 1 ++ f.state.responses.flatten ++ f.held =
    (f.answers.map Prod.snd).flatten
  uart : f.state.returned 3 ++ f.buffered = f.reads
  reading : ∀ capacity, f.reader = .reading capacity → f.buffered = []
  order : (f.answers.map (·.1.arc) ++ f.order).Pairwise (· < ·)
  bound : ∀ arc ∈ f.answers.map (·.1.arc) ++ f.order, arc < f.accepted
  serves : ∀ answer ∈ f.answers, UsbWorker.dap.Serves answer.1

namespace Flow.Conserved

variable {f f' : Flow} {raises : Prop}

section

variable (h : f.Conserved)
include h

theorem state {s : UsbState}
    (hone : s.returned 1 ++ s.responses.flatten =
      f.state.returned 1 ++ f.state.responses.flatten)
    (hthree : s.returned 3 = f.state.returned 3) : ({ f with state := s }).Conserved :=
  ⟨by dsimp only; rw [hone]; exact h.dap, by dsimp only; rw [hthree]; exact h.uart,
    h.reading, h.order, h.bound, h.serves⟩

theorem same {s : UsbState} (hresponses : s.responses = f.state.responses)
    (hreturned : ∀ ep, s.returned ep = f.state.returned ep) : ({ f with state := s }).Conserved :=
  h.state (by rw [hresponses, hreturned]) (hreturned 3)

theorem accept : ({ f with accepted := f.accepted + 1 }).Conserved :=
  ⟨h.dap, h.uart, h.reading, h.order, fun arc harc => Nat.lt_succ_of_lt (h.bound arc harc),
    h.serves⟩

theorem sublist {order : List ℕ} (horder : order.Sublist f.order) :
    ({ f with order := order }).Conserved :=
  ⟨h.dap, h.uart, h.reading, h.order.sublist (horder.append_left _),
    fun arc harc => h.bound arc ((horder.append_left _).subset harc), h.serves⟩

/-- One more accepted URB, which the worker of the DAP requests serves last. -/
theorem queue :
    ({ f with order := f.order ++ [f.accepted], accepted := f.accepted + 1 }).Conserved := by
  refine ⟨h.dap, h.uart, h.reading, ?_, ?_, h.serves⟩
  · dsimp only
    rw [← List.append_assoc, List.pairwise_append]
    refine ⟨h.order, List.pairwise_singleton _ _, ?_⟩
    intro arc harc last hlast
    rw [List.mem_singleton] at hlast
    rw [hlast]
    exact h.bound arc harc
  · intro arc harc
    dsimp only at harc ⊢
    rw [← List.append_assoc, List.mem_append, List.mem_singleton] at harc
    rcases harc with harc | rfl
    · exact Nat.lt_succ_of_lt (h.bound arc harc)
    · exact Nat.lt_succ_self _

theorem step (hstep : FlowStep raises f f') : f'.Conserved := by
  cases hstep with
  | quiet s order hsame horder =>
    exact (h.sublist horder).same hsame.2.1 hsame.returned
  | complete urb data status s hcomplete hdata =>
    have hother : ∀ ep : Word, ep ≠ 0 → s.returned ep = f.state.returned ep := by
      intro ep hep
      refine UsbState.complete_returned_other hcomplete fun heq hinput => ?_
      rcases hdata hinput with hzero | hnil
      · rw [hzero] at heq
        exact absurd heq.symm hep
      · exact hnil
    refine h.state ?_ (hother 3 (by decide))
    rw [hother 1 (by decide), (UsbState.complete_frame_of_eq hcomplete).1]
  | unlink urb s hunlink =>
    obtain ⟨hresponses, -, -, hreturned⟩ := UsbState.unlink_frame hunlink
    exact h.same hresponses hreturned
  | queue urb order harc hurb horder =>
    rcases horder with rfl | rfl
    · exact h.accept.same rfl fun _ => rfl
    · rw [harc]
      exact h.queue.same rfl fun _ => rfl
  | refuse urb status s harc hcomplete =>
    exact h.accept.same (UsbState.complete_frame_of_eq hcomplete).1
      fun ep => UsbState.complete_returned_other hcomplete fun _ _ => rfl
  | offer urb s harc hflush =>
    obtain ⟨hone, hthree⟩ := UsbState.flush_conserves hflush
    exact h.accept.state hone hthree
  | raise value s hraises hflush =>
    obtain ⟨hone, hthree⟩ := UsbState.flush_conserves hflush
    exact h.state hone hthree
  | hold urb response order hheld horder hserves =>
    refine ⟨?_, h.uart, h.reading, ?_, ?_, ?_⟩
    · have hdap := h.dap
      rw [hheld, List.append_nil] at hdap
      dsimp only
      rw [hdap, List.map_append, List.flatten_append]
      simp
    · have hpairs := h.order
      rw [horder] at hpairs
      simpa using hpairs
    · have hbound := h.bound
      rw [horder] at hbound
      simpa using hbound
    · simp only [List.mem_append, List.mem_singleton]
      rintro answer (hanswer | rfl)
      · exact h.serves answer hanswer
      · exact hserves
  | release urb s t hurb hcomplete hflush =>
    obtain ⟨hone, hthree⟩ := UsbState.flush_conserves hflush
    have hreturned : ∀ ep, t.returned ep = f.state.returned ep :=
      fun ep => UsbState.complete_returned_other hcomplete fun _ _ => rfl
    have hresponses := (UsbState.complete_frame_of_eq hcomplete).1
    rw [hreturned, hresponses] at hone
    rw [hreturned] at hthree
    refine ⟨?_, ?_, h.reading, h.order, h.bound, h.serves⟩
    · rw [← h.dap]
      simpa using hone
    · dsimp only
      rw [hthree]
      exact h.uart
  | poll reader hreader => exact ⟨h.dap, h.uart, hreader, h.order, h.bound, h.serves⟩
  | fetch capacity bytes hreader =>
    refine ⟨h.dap, ?_, fun _ hreading => (by cases hreading), h.order, h.bound, h.serves⟩
    have huart := h.uart
    rw [h.reading capacity hreader, List.append_nil] at huart
    dsimp only
    rw [huart]
  | deliver urb s hurb hcomplete =>
    obtain ⟨-, hep, hinput⟩ := UsbState.firstInput_spec hurb
    have hthree := UsbState.complete_returned_input hcomplete
      (UsbState.present_of_firstInput hurb) hinput
    have hone : s.returned 1 = f.state.returned 1 :=
      UsbState.complete_returned_other hcomplete fun heq => absurd (heq.symm.trans hep) (by decide)
    rw [hep] at hthree
    refine ⟨?_, ?_, fun _ hreading => (by cases hreading), h.order, h.bound, h.serves⟩
    · dsimp only
      rw [hone, (UsbState.complete_frame_of_eq hcomplete).1]
      exact h.dap
    · dsimp only
      rw [hthree, List.append_assoc, List.take_append_drop]
      exact h.uart

end

end Flow.Conserved

namespace UsbSession

/-- The responses of the device that are not returned yet: those that wait for an URB, and the
one that the worker has not put with them. -/
def dapBuffered (x : UsbSession) : List Byte :=
  x.state.responses.flatten ++ (x.places .dap).held

theorem conserved_start : start.flow.Conserved :=
  ⟨rfl, rfl, fun _ h => (by cases h), .nil, by simp [start, flow, WorkerPlace.unanswered],
    by simp [start, flow]⟩

theorem conserved_run (d : Descriptors) (actions : List UsbAction)
    (h : (run d actions).failed = false) : (run d actions).flow.Conserved := by
  refine Concurrency.foldl_induct (fun x : UsbSession => x.failed = false → x.flow.Conserved)
    (fun x _ => x.Sound) (fun _ => conserved_start) ?_ actions
    (fun before _ _ _ => sound_run d before) h
  intro x action hx hinv hok
  obtain ⟨hfailed, hstep⟩ := flows_step hx action hok
  exact (hinv hfailed).step hstep

end UsbSession

/-- As long as no task of a USB/IP session has failed: the data returned on endpoint 1, with what
waits behind them, are the responses to the DAP requests, in the order in which these were
submitted; and the data returned on endpoint 3, with what waits behind them, are the bytes read
from the UART. -/
theorem usbip_streams (d : Descriptors) (actions : List UsbAction)
    (hok : (UsbSession.run d actions).failed = false) :
    (UsbSession.run d actions).state.returned 1 ++ (UsbSession.run d actions).dapBuffered =
      ((UsbSession.run d actions).answers.map Prod.snd).flatten ∧
    ((UsbSession.run d actions).answers.map (·.1.arc)).Pairwise (· < ·) ∧
    (∀ answer ∈ (UsbSession.run d actions).answers, UsbWorker.dap.Serves answer.1) ∧
    (UsbSession.run d actions).state.returned 3 ++ (UsbSession.run d actions).buffered =
      (UsbSession.run d actions).reads := by
  have h := UsbSession.conserved_run d actions hok
  refine ⟨?_, (List.pairwise_append.mp h.order).1, h.serves, h.uart⟩
  have hdap := h.dap
  rw [List.append_assoc] at hdap
  exact hdap

/-- The header of a SUBMIT for device 1-1. -/
def submitHeader (seq direction ep size : Word) (setup : List Byte) : List Byte :=
  Wire.wordBytes 1 ++ Wire.wordBytes seq ++ Wire.wordBytes usbDevice ++ Wire.wordBytes direction ++
    Wire.wordBytes ep ++ Wire.wordBytes 0 ++ Wire.wordBytes size ++ List.replicate 12 0 ++ setup

/-- A DAP request whose response of three bytes meets an URB for two. -/
def splitResponse : List UsbAction :=
  [.receive (submitHeader 1 0 1 1 (List.replicate 8 0)) [5],
    .receive (submitHeader 2 1 1 2 (List.replicate 8 0)) []] ++
    List.replicate 7 (.work .dap (.ok [5, 6, 7]))

/-- Two bytes are returned and the third one waits. -/
theorem splitResponse_streams :
    (UsbSession.run ⟨fun _ _ => none, []⟩ splitResponse).failed = false ∧
    (UsbSession.run ⟨fun _ _ => none, []⟩ splitResponse).state.returned 1 = [5, 6] ∧
    (UsbSession.run ⟨fun _ _ => none, []⟩ splitResponse).state.returned 1 ++
      (UsbSession.run ⟨fun _ _ => none, []⟩ splitResponse).dapBuffered =
      ((UsbSession.run ⟨fun _ _ => none, []⟩ splitResponse).answers.map Prod.snd).flatten :=
  ⟨by decide +kernel, by decide +kernel, (usbip_streams _ splitResponse (by decide +kernel)).1⟩

end AirDap
