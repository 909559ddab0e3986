import AirDap.UsbIp.Session
import Mathlib.Data.List.Nodup
import Mathlib.Data.List.Pairwise

/-! Which packets answer which URBs: every URB that was accepted is answered at most once, by a
RET_SUBMIT that fits it or by the UNLINK that removes it. -/
namespace AirDap
open Function

/-- The allocation of the URB that a packet removes from the pending ones. -/
def SentPacket.arc? : SentPacket → Option ℕ
  | .submit urb _ => some urb.arc
  | .unlink target _ => target.map Urb.arc

/-- A RET_SUBMIT fits its URB. -/
def UsbPacket.Fits (packet : UsbPacket) (urb : Urb) : Prop :=
  packet.command = 3 ∧ packet.seq = urb.seq ∧ packet.actualLength.toNat ≤ urb.size ∧
    (urb.direction = .input → packet.data.length = packet.actualLength.toNat)

/-- A packet is about an URB that was accepted, and fits it. -/
def SentPacket.About (accepted : List Urb) : SentPacket → Prop
  | .submit urb packet => accepted[urb.arc]? = some urb ∧ packet.Fits urb
  | .unlink (some target) _ => accepted[target.arc]? = some target
  | .unlink none _ => True

/-- The pending URBs and the packets of a state, for the URBs that were accepted. -/
structure UrbsSound (accepted pending : List Urb) (sent : List SentPacket) : Prop where
  known : ∀ urb ∈ pending, accepted[urb.arc]? = some urb
  about : ∀ packet ∈ sent, packet.About accepted
  once : (pending.map Urb.arc ++ sent.filterMap SentPacket.arc?).Nodup
  seqs : (pending.map Urb.seq).Nodup

theorem getElem?_append_of_some {accepted : List Urb} {i : ℕ} {urb : Urb} (other : Urb)
    (h : accepted[i]? = some urb) : (accepted ++ [other])[i]? = some urb := by
  obtain ⟨hi, -⟩ := List.getElem?_eq_some_iff.mp h
  rw [List.getElem?_append_left hi, h]

theorem SentPacket.About.append {accepted : List Urb} {packet : SentPacket} (other : Urb)
    (h : packet.About accepted) : packet.About (accepted ++ [other]) := by
  cases packet with
  | submit urb packet => exact ⟨getElem?_append_of_some other h.1, h.2⟩
  | unlink target packet =>
    cases target with
    | none => trivial
    | some target => exact getElem?_append_of_some other h

theorem SentPacket.About.arc_lt {accepted : List Urb} {packet : SentPacket} {arc : ℕ}
    (h : packet.About accepted) (harc : packet.arc? = some arc) : arc < accepted.length := by
  cases packet with
  | submit urb packet =>
    cases harc
    exact (List.getElem?_eq_some_iff.mp h.1).1
  | unlink target packet =>
    cases target with
    | none => cases harc
    | some target =>
      cases harc
      exact (List.getElem?_eq_some_iff.mp h).1

namespace UrbsSound

variable {accepted pending : List Urb} {sent : List SentPacket} {p : Urb → Bool}

section

variable (h : UrbsSound accepted pending sent)
include h

theorem drop : UrbsSound accepted (pending.eraseP p) sent where
  known urb hurb := h.known urb (List.mem_of_mem_eraseP hurb)
  about := h.about
  once := h.once.sublist ((List.eraseP_sublist.map _).append_right _)
  seqs := h.seqs.sublist (List.eraseP_sublist.map _)

theorem close {urb : Urb} (hfind : pending.find? p = some urb) {packet : SentPacket}
    (harc : packet.arc? = some urb.arc) (habout : packet.About accepted) :
    UrbsSound accepted (pending.eraseP p) (sent ++ [packet]) where
  known := h.drop.known
  about := List.forall_mem_append.mpr ⟨h.about, List.forall_mem_singleton.mpr habout⟩
  once := by
    obtain ⟨hp, before, after, rfl, hbefore⟩ := List.find?_eq_some_iff_append.mp hfind
    have herase : (before ++ urb :: after).eraseP p = before ++ after := by
      rw [List.eraseP_append_right _ (by simpa using hbefore), List.eraseP_cons_of_pos hp]
    have hperm : ((before ++ after).map Urb.arc ++
        (sent ++ [packet]).filterMap SentPacket.arc?).Perm
        ((before ++ urb :: after).map Urb.arc ++ sent.filterMap SentPacket.arc?) := by
      simp only [List.filterMap_append, List.filterMap_cons, harc, List.filterMap_nil,
        List.map_append, List.map_cons, List.append_assoc, List.cons_append]
      refine List.Perm.append_left _ ?_
      rw [← List.append_assoc]
      exact List.perm_append_singleton _ _
    rw [herase]
    exact hperm.nodup_iff.mpr h.once
  seqs := h.drop.seqs

theorem answer (packet : UsbPacket) :
    UrbsSound accepted pending (sent ++ [.unlink none packet]) where
  known := h.known
  about := List.forall_mem_append.mpr ⟨h.about, List.forall_mem_singleton.mpr trivial⟩
  once := by
    have hnone : [SentPacket.unlink none packet].filterMap SentPacket.arc? = [] := rfl
    rw [List.filterMap_append, hnone, List.append_nil]
    exact h.once
  seqs := h.seqs

theorem accept {urb : Urb} (harc : urb.arc = accepted.length)
    (hseq : ∀ other ∈ pending, other.seq ≠ urb.seq) :
    UrbsSound (accepted ++ [urb]) (pending ++ [urb]) sent where
  known := by
    refine List.forall_mem_append.mpr ⟨fun other hother => ?_, List.forall_mem_singleton.mpr ?_⟩
    · exact getElem?_append_of_some urb (h.known other hother)
    · rw [harc, List.getElem?_concat_length]
  about packet hpacket := (h.about packet hpacket).append urb
  once := by
    have hfresh : urb.arc ∉ pending.map Urb.arc ++ sent.filterMap SentPacket.arc? := by
      rw [harc, List.mem_append, List.mem_map, List.mem_filterMap]
      rintro (⟨other, hother, heq⟩ | ⟨packet, hpacket, heq⟩)
      · have hlt := (List.getElem?_eq_some_iff.mp (h.known other hother)).1
        omega
      · have hlt := (h.about packet hpacket).arc_lt heq
        omega
    have hperm : ((pending ++ [urb]).map Urb.arc ++ sent.filterMap SentPacket.arc?).Perm
        (urb.arc :: (pending.map Urb.arc ++ sent.filterMap SentPacket.arc?)) := by
      simp only [List.map_append, List.map_cons, List.map_nil, List.append_assoc,
        List.cons_append, List.nil_append]
      exact List.perm_middle
    rw [hperm.nodup_iff, List.nodup_cons]
    exact ⟨hfresh, h.once⟩
  seqs := by
    rw [List.map_append, List.nodup_append]
    refine ⟨h.seqs, by simp, ?_⟩
    simp only [List.mem_map, List.map_cons, List.map_nil, List.mem_singleton]
    rintro _ ⟨other, hother, rfl⟩ _ rfl
    exact hseq other hother

end

end UrbsSound

theorem UsbState.retSubmit_fits {urb : Urb} {data : List Byte} (hsize : urb.size ≤ usbLimit)
    (hdata : data.length ≤ urb.size) (status : ℤ) : (retSubmit urb data status).Fits urb := by
  have hword : ∀ n, n ≤ usbLimit → (BitVec.ofNat 32 n).toNat = n := by
    intro n hn
    rw [BitVec.toNat_ofNat]
    exact Nat.mod_eq_of_lt (by unfold usbLimit at hn; omega)
  refine ⟨rfl, rfl, ?_, ?_⟩
  · unfold retSubmit
    dsimp only
    split_ifs
    · exact Nat.zero_le _
    · rw [hword _ (by omega)]
      exact hdata
    · rw [hword _ hsize]
  · intro hinput
    unfold retSubmit
    dsimp only
    by_cases hstatus : status = 0
    · rw [if_pos ⟨hstatus, hinput⟩, if_neg (by simpa using hstatus), if_pos hinput,
        hword _ (by omega)]
    · rw [if_neg (fun h => hstatus h.1), if_pos hstatus]
      rfl

/-- The part of a state that is about pending URBs and packets is sound, and at most `n`
responses wait. -/
def UsbState.Holds (accepted : List Urb) (n : ℕ) (s : UsbState) : Prop :=
  UrbsSound accepted s.pending s.sent ∧ s.responses.length ≤ n

section State

variable {accepted : List Urb} {n : ℕ} {s : UsbState} {urb : Urb} {data : List Byte}

/-- Every accepted URB keeps to the limit. -/
def Limited (accepted : List Urb) : Prop := ∀ urb ∈ accepted, urb.size ≤ usbLimit

theorem Limited.size (h : Limited accepted) {i : ℕ} (hurb : accepted[i]? = some urb) :
    urb.size ≤ usbLimit :=
  h urb (List.mem_of_getElem? hurb)

section

variable (h : s.Holds accepted n)
include h

theorem UsbState.Holds.complete (hlimit : Limited accepted) (hurb : accepted[urb.arc]? = some urb)
    (hdata : data.length ≤ urb.size) (status : ℤ) :
    (s.complete urb data status).1.Holds accepted n := by
  have hfind : s.present urb = true →
      s.pending.find? (fun other => other.arc = urb.arc) = some urb := by
    intro hpresent
    obtain ⟨other, hother, harc⟩ := present_iff.mp hpresent
    cases hfind : s.pending.find? (fun other => other.arc = urb.arc) with
    | none => exact absurd (List.find?_eq_none.mp hfind other hother) (by simpa using harc)
    | some found =>
      -- the allocation determines the URB
      have hmem := h.1.known found (List.mem_of_find?_eq_some hfind)
      have heq : found.arc = urb.arc := by simpa using List.find?_some hfind
      rw [heq, hurb] at hmem
      exact congrArg some (Option.some.inj hmem).symm
  rcases complete_cases s urb data status with ⟨-, heq⟩ | ⟨hpresent, heq⟩ | ⟨-, heq⟩
  · rw [heq]
    exact h
  · rw [heq]
    exact ⟨h.1.close (hfind hpresent) rfl
      ⟨hurb, UsbState.retSubmit_fits (hlimit.size hurb) hdata status⟩, h.2⟩
  · rw [heq]
    exact ⟨h.1.drop, h.2⟩

theorem UsbState.Holds.of_firstInput {ep : Word} (hurb : s.firstInput ep = some urb) :
    accepted[urb.arc]? = some urb :=
  h.1.known urb (firstInput_spec hurb).1

theorem UsbState.Holds.deliver (hlimit : Limited accepted) {response : List Byte}
    {rest : List (List Byte)} (hresponses : s.responses = response :: rest)
    (hurb : s.firstInput 1 = some urb) : (s.deliver urb response rest).1.Holds accepted n := by
  have hlength := h.2
  rw [hresponses, List.length_cons] at hlength
  have hrest : { s with responses := rest }.Holds accepted (n - 1) := ⟨h.1, by dsimp only; omega⟩
  have htake : (response.take (min response.length urb.size)).length ≤ urb.size := by simp
  have hcomplete := hrest.complete hlimit (h.of_firstInput hurb) htake 0
  have hless : ∀ {t : UsbState}, t.Holds accepted (n - 1) → t.Holds accepted n :=
    fun ht => ⟨ht.1, ht.2.trans (Nat.sub_le _ _)⟩
  unfold UsbState.deliver
  dsimp only
  split_ifs
  · exact hless hcomplete
  · exact hless hcomplete
  · refine ⟨hcomplete.1, ?_⟩
    have hle := hcomplete.2
    rw [List.length_cons]
    omega

theorem UsbState.Holds.flush (hlimit : Limited accepted) : s.flush.1.Holds accepted n := by
  refine flush_induct (P := fun s _ => s.Holds accepted n) ?_ ?_ ?_ h
  · intro s urb response rest hs hresponses hurb
    exact hs.deliver hlimit hresponses hurb
  · intro s hs
    exact hs
  · intro s urb hs hurb _
    have hs' : { s with
        notification := s.notification.drop (min urb.size s.notification.length) }.Holds
        accepted n := hs
    exact hs'.complete hlimit (hs.of_firstInput hurb) (by simp) 0

theorem UsbState.Holds.mono {m : ℕ} (hle : n ≤ m) : s.Holds accepted m :=
  ⟨h.1, h.2.trans hle⟩

end

end State

/-- The URBs that a worker serves. -/
def UsbWorker.Serves (worker : UsbWorker) (urb : Urb) : Prop :=
  match worker with
  | .control => urb.ep = 0
  | .dap => urb.ep = 1 ∧ urb.direction = .output
  | .uart => urb.ep = 3 ∧ urb.direction = .output

theorem UsbSession.serves_workerOf {urb : Urb} {worker : UsbWorker}
    (h : workerOf urb = some worker) : worker.Serves urb := by
  unfold workerOf at h
  split_ifs at h with hcontrol hdap huart <;> cases h
  · exact hcontrol
  · exact hdap
  · exact huart

namespace WorkerPlace

/-- The URB that a worker is about. -/
def urb? : WorkerPlace → Option Urb
  | .idle | .stopped => none
  | .taken urb | .started urb | .configuring urb _ _ | .storing urb _ | .raising urb _
  | .spacing urb | .waiting urb | .rechecking urb | .requesting urb | .answered urb _
  | .writing urb | .finishing urb _ _ => some urb

/-- The places of one worker only, and the data that a worker returns. -/
def Belongs (worker : UsbWorker) : WorkerPlace → Prop
  | .configuring _ _ _ | .storing _ _ | .raising _ _ => worker = .control
  | .spacing _ | .waiting _ | .rechecking _ | .requesting _ | .answered _ _ => worker = .dap
  | .writing _ => worker = .uart
  | .finishing urb data _ => data.length ≤ urb.size ∧ (worker ≠ .control → data = [])
  | .idle | .taken _ | .started _ | .stopped => True

/-- How many responses may wait: there is room for one more once the worker has seen it. -/
def limit : WorkerPlace → ℕ
  | .rechecking _ | .requesting _ | .answered _ _ => 3
  | _ => 4

theorem limit_le (place : WorkerPlace) : place.limit ≤ 4 := by
  cases place <;> simp [limit]

/-- A place of the worker, about an URB that was accepted. -/
def Ok (accepted : List Urb) (worker : UsbWorker) (place : WorkerPlace) : Prop :=
  (∀ urb, place.urb? = some urb → accepted[urb.arc]? = some urb ∧ worker.Serves urb) ∧
    place.Belongs worker

variable {accepted : List Urb} {worker : UsbWorker} {place place' : WorkerPlace}

theorem Ok.append (h : place.Ok accepted worker) (other : Urb) :
    place.Ok (accepted ++ [other]) worker :=
  ⟨fun urb hurb => ⟨getElem?_append_of_some other (h.1 urb hurb).1, (h.1 urb hurb).2⟩, h.2⟩

theorem Ok.next (h : place.Ok accepted worker) (hurb : place'.urb? = place.urb?)
    (hnext : place'.Belongs worker) : place'.Ok accepted worker :=
  ⟨fun urb hu => h.1 urb (hurb ▸ hu), hnext⟩

theorem ok_idle : WorkerPlace.idle.Ok accepted worker := ⟨fun _ h => (by cases h), trivial⟩

theorem ok_stopped : WorkerPlace.stopped.Ok accepted worker := ⟨fun _ h => (by cases h), trivial⟩

end WorkerPlace

/-- The line of two states is the same. -/
def UsbState.SameLine (s t : UsbState) : Prop := t.coding = s.coding ∧ t.lineState = s.lineState

namespace UsbState

variable {s : UsbState}

theorem sameLine_complete (s : UsbState) (urb : Urb) (data : List Byte) (status : ℤ) :
    s.SameLine (s.complete urb data status).1 :=
  ⟨(s.complete_frame urb data status).2.2.1, (s.complete_frame urb data status).2.2.2⟩

theorem sameLine_deliver (s : UsbState) (urb : Urb) (response : List Byte)
    (rest : List (List Byte)) : s.SameLine (s.deliver urb response rest).1 := by
  have hcomplete := sameLine_complete { s with responses := rest } urb
    (response.take (min response.length urb.size)) 0
  unfold deliver
  dsimp only
  split_ifs <;> exact hcomplete

theorem sameLine_flush (s : UsbState) : s.SameLine s.flush.1 := by
  refine flush_induct (P := fun u _ => s.SameLine u) ?_ ?_ ?_ ⟨rfl, rfl⟩
  · intro u urb response rest hu _ _
    obtain ⟨hcoding, hline⟩ := sameLine_deliver u urb response rest
    exact ⟨hcoding.trans hu.1, hline.trans hu.2⟩
  · intro u hu
    exact hu
  · intro u urb hu _ _
    obtain ⟨hcoding, hline⟩ := sameLine_complete { u with
      notification := u.notification.drop (min urb.size u.notification.length) } urb
      (u.notification.take (min urb.size u.notification.length)) 0
    exact ⟨hcoding.trans hu.1, hline.trans hu.2⟩

theorem sameLine_unlink (s : UsbState) (urb : Urb) : s.SameLine (s.unlink urb).1 := by
  rcases s.unlink_cases urb with h | h <;>
  · rw [h]
    exact ⟨rfl, rfl⟩

end UsbState

/-- The completion invariant of a session. -/
structure UsbSession.Sound (x : UsbSession) : Prop where
  limited : Limited x.accepted
  state : x.state.Holds x.accepted (x.places .dap).limit
  queues : ∀ worker, ∀ urb ∈ x.queues worker,
    x.accepted[urb.arc]? = some urb ∧ worker.Serves urb
  places : ∀ worker, (x.places worker).Ok x.accepted worker

namespace UsbSession

/-- The parts of a session that only the worker of endpoint 0 changes are the same. -/
def SameLine (x y : UsbSession) : Prop :=
  y.places .control = x.places .control ∧ y.state.coding = x.state.coding ∧
    y.state.lineState = x.state.lineState ∧ y.configured = x.configured

/-- The invariant holds after a step, and a step that is not one of the worker of endpoint 0
leaves the line alone. -/
structure Steps (x : UsbSession) (other : Prop) (y : UsbSession) : Prop where
  sound : y.Sound
  line : other → SameLine x y

variable {d : Descriptors} {x y : UsbSession} {worker : UsbWorker} {place : WorkerPlace} {urb : Urb}
  {other : Prop}

theorem Steps.fail (h : x.Steps other y) : x.Steps other { y with failed := true } :=
  ⟨⟨h.sound.limited, h.sound.state, h.sound.queues, h.sound.places⟩, h.line⟩

/-- The worker of the DAP requests alone leaves room for a response. -/
theorem holds_update {s : UsbState} (hs : s.Holds x.accepted 4)
    (hother : worker ≠ .dap → s.Holds x.accepted (x.places .dap).limit) (hlimit : place.limit = 4) :
    s.Holds x.accepted (update x.places worker place .dap).limit := by
  by_cases hdap : worker = .dap
  · subst hdap
    rw [update_self, hlimit]
    exact hs
  · rw [update_of_ne (Ne.symm hdap)]
    exact hother hdap

section

variable (h : x.Sound)
include h

theorem Sound.steps : x.Steps other x := ⟨h, fun _ => ⟨rfl, rfl, rfl, rfl⟩⟩

theorem Sound.move {s : UsbState}
    (hs : s.Holds x.accepted (update x.places worker place .dap).limit)
    (hline : worker ≠ .control → x.state.SameLine s) (hplace : place.Ok x.accepted worker) :
    x.Steps (worker ≠ .control) { x.enter worker place with state := s } := by
  refine ⟨⟨h.limited, hs, h.queues, fun other => ?_⟩, fun hworker =>
    ⟨update_of_ne hworker.symm _ _, (hline hworker).1, (hline hworker).2, rfl⟩⟩
  by_cases hother : other = worker
  · subst hother
    simp only [enter, update_self]
    exact hplace
  · simp only [enter, update_of_ne hother]
    exact h.places other

theorem Sound.holds : x.state.Holds x.accepted 4 :=
  h.state.mono (WorkerPlace.limit_le _)

theorem Sound.enter (hlimit : place.limit = 4) (hplace : place.Ok x.accepted worker) :
    x.Steps (worker ≠ .control) (x.enter worker place) :=
  h.move (holds_update h.holds (fun _ => h.state) hlimit) (fun _ => ⟨rfl, rfl⟩) hplace

theorem Sound.stop (worker : UsbWorker) : x.Steps (worker ≠ .control) (x.stop worker) :=
  (h.enter rfl WorkerPlace.ok_stopped).fail

theorem Sound.locked {result : UsbState × Bool} (hs : result.1.Holds x.accepted 4)
    (hother : worker ≠ .dap → result.1.Holds x.accepted (x.places .dap).limit)
    (hline : worker ≠ .control → x.state.SameLine result.1)
    (hlimit : place.limit = 4) (hplace : place.Ok x.accepted worker) :
    x.Steps (worker ≠ .control) (x.locked worker result place) := by
  unfold UsbSession.locked
  split_ifs
  · exact h.move (holds_update hs hother hlimit) hline hplace
  · exact (h.move (holds_update hs hother rfl) hline WorkerPlace.ok_stopped).fail

theorem Sound.received {result : UsbState × Bool}
    (hs : result.1.Holds x.accepted (x.places .dap).limit) (hline : x.state.SameLine result.1) :
    x.Steps other (x.received result) := by
  unfold UsbSession.received
  split_ifs <;>
    exact ⟨⟨h.limited, hs, h.queues, h.places⟩, fun _ => ⟨rfl, hline.1, hline.2, rfl⟩⟩

theorem Sound.dispatch (hurb : x.accepted[urb.arc]? = some urb) :
    x.Steps other (x.dispatch urb) := by
  have hcomplete : ∀ status, x.Steps other (x.received (x.state.complete urb [] status)) :=
    fun status => h.received (h.state.complete h.limited hurb (Nat.zero_le _) status)
      (x.state.sameLine_complete urb [] status)
  unfold UsbSession.dispatch
  split
  next worker hworker =>
    split_ifs
    · refine ⟨⟨h.limited, h.state, fun other => ?_, h.places⟩, fun _ => ⟨rfl, rfl, rfl, rfl⟩⟩
      by_cases hother : other = worker
      · subst hother
        simp only [update_self, List.mem_append, List.mem_singleton]
        rintro u (hu | rfl)
        · exact h.queues other u hu
        · exact ⟨hurb, serves_workerOf hworker⟩
      · simp only [update_of_ne hother]
        exact h.queues other
    · exact hcomplete _
  next =>
    split_ifs
    · exact hcomplete _
    · exact h.received (h.state.flush h.limited) x.state.sameLine_flush
    · exact hcomplete _

theorem Sound.submit (harc : urb.arc = x.accepted.length) (hsize : urb.size ≤ usbLimit) :
    x.Steps other (x.submit urb) := by
  unfold UsbSession.submit
  split_ifs with hfits
  · have haccept : (x.accept urb).Sound := by
      refine ⟨?_, ⟨h.state.1.accept harc hfits.2, h.state.2⟩, ?_, ?_⟩
      · exact List.forall_mem_append.mpr ⟨h.limited, List.forall_mem_singleton.mpr hsize⟩
      · intro worker other hother
        exact ⟨getElem?_append_of_some urb (h.queues worker other hother).1,
          (h.queues worker other hother).2⟩
      · exact fun worker => (h.places worker).append urb
    have hurb : (x.accept urb).accepted[urb.arc]? = some urb := by
      rw [accept, harc, List.getElem?_concat_length]
    have hsteps : (x.accept urb).Steps other ((x.accept urb).dispatch urb) := haccept.dispatch hurb
    exact ⟨hsteps.sound, hsteps.line⟩
  · exact ⟨⟨h.limited, h.state, h.queues, h.places⟩, fun _ => ⟨rfl, rfl, rfl, rfl⟩⟩

theorem Sound.unlink (urb : Urb) : x.Steps other (x.unlink urb) := by
  refine h.received ?_ (x.state.sameLine_unlink urb)
  rcases x.state.unlink_cases urb with hunlink | hunlink
  · rw [hunlink]
    refine ⟨?_, h.state.2⟩
    cases hfind : x.state.unlinkTarget urb with
    | none =>
      have herase : (x.state.pending.eraseP fun other => other.seq = urb.flags) =
          x.state.pending :=
        List.eraseP_of_forall_not (List.find?_eq_none.mp hfind)
      simp only [herase]
      exact h.state.1.answer _
    | some target =>
      exact h.state.1.close hfind rfl (h.state.1.known target (List.mem_of_find?_eq_some hfind))
  · rw [hunlink]
    exact ⟨h.state.1.drop, h.state.2⟩

end

theorem parse_size {header : List Byte} (h : Urb.parse header = some urb)
    (hcommand : urb.command ≠ 2) : urb.size ≤ usbLimit := by
  unfold Urb.parse at h
  dsimp only at h
  split_ifs at h with hdevice hknown hep hlimit
  all_goals
    rw [Option.some.injEq] at h
    rw [← h] at hcommand ⊢
    have hsubmit : readU32Be header 0 = 1 := by
      by_contra hne
      exact hknown ⟨hne, hcommand⟩
    by_contra hsize
    exact hlimit ⟨hsubmit, fun hok => hsize hok.1⟩

theorem Sound.receive (h : x.Sound) (header data : List Byte) :
    x.Steps other (x.receive header data) := by
  have hfailed : x.Steps other { x with receiving := false, failed := true } :=
    ⟨⟨h.limited, h.state, h.queues, h.places⟩, fun _ => ⟨rfl, rfl, rfl, rfl⟩⟩
  unfold UsbSession.receive
  split_ifs
  · exact h.steps
  · split
    next => exact hfailed
    next urb hparse =>
      split_ifs with hcommand
      · exact h.unlink urb
      · exact hfailed
      · have hsize : urb.size ≤ usbLimit := parse_size hparse hcommand
        exact h.submit rfl hsize

theorem belongs_reply (worker : UsbWorker) (urb : Urb) (data : Option (List Byte))
    (hdata : worker ≠ .control → data.getD [] = []) : (replyPlace urb data).Belongs worker := by
  cases data with
  | none => exact ⟨Nat.zero_le _, fun _ => rfl⟩
  | some data =>
    refine ⟨List.length_take_le _ _, fun hworker => ?_⟩
    rw [show data = [] from hdata hworker, List.take_nil]

theorem urb?_reply (urb : Urb) (data : Option (List Byte)) :
    (replyPlace urb data).urb? = some urb := by
  cases data <;> rfl

theorem limit_reply (urb : Urb) (data : Option (List Byte)) : (replyPlace urb data).limit = 4 := by
  cases data <;> rfl

section

variable (h : x.Sound)
include h

theorem Sound.startControl (hplace : x.places .control = .started urb) :
    x.Steps (UsbWorker.control ≠ .control) (startControl d x urb) := by
  have hok := h.places .control
  rw [hplace] at hok
  have hreply : ∀ data, (replyPlace urb data).Ok x.accepted .control :=
    fun data => hok.next (urb?_reply urb data) (belongs_reply _ _ _ fun hne => absurd rfl hne)
  unfold UsbSession.startControl
  split
  next data _ => exact h.enter (limit_reply _ _) (hreply data)
  next value _ =>
    split_ifs
    · exact h.stop _
    · exact h.locked h.holds (fun _ => h.state) (absurd rfl) (limit_reply _ _) (hreply _)
  next coding _ => split_ifs <;> exact h.enter rfl (hok.next rfl rfl)
  next value _ => split_ifs <;> exact h.enter rfl (hok.next rfl rfl)

theorem Sound.begin (hplace : x.places worker = .started urb) :
    x.Steps (worker ≠ .control) (begin d x worker urb) := by
  have hok := h.places worker
  rw [hplace] at hok
  have hstall : x.Steps (worker ≠ .control) (x.enter worker (.finishing urb [] usbStall)) :=
    h.enter rfl (hok.next rfl ⟨Nat.zero_le _, fun _ => rfl⟩)
  unfold UsbSession.begin
  cases worker with
  | control => exact h.startControl hplace
  | dap =>
    dsimp only
    split_ifs
    · exact h.enter rfl (hok.next rfl rfl)
    · exact hstall
  | uart =>
    dsimp only
    split_ifs
    · exact hstall
    · exact h.enter rfl (hok.next rfl rfl)

theorem Sound.enter_dap (hroom : x.state.responses.length ≤ place.limit)
    (hplace : place.Ok x.accepted .dap) :
    x.Steps (UsbWorker.dap ≠ .control) (x.enter .dap place) := by
  refine h.move ?_ (fun _ => ⟨rfl, rfl⟩) hplace
  rw [update_self]
  exact ⟨h.state.1, hroom⟩

theorem Sound.work (worker : UsbWorker) (answer : BackendAnswer) :
    x.Steps (worker ≠ .control) (work d x worker answer) := by
  have hok := h.places worker
  obtain ⟨place, hplace⟩ : ∃ place, x.places worker = place := ⟨_, rfl⟩
  unfold UsbSession.work
  rw [hplace] at hok ⊢
  cases place with
  | idle =>
    dsimp only
    split
    next => exact h.steps
    next urb rest hqueue =>
      have hhead := h.queues worker urb (by rw [hqueue]; exact List.mem_cons_self ..)
      have hentered : x.Steps (worker ≠ .control) (x.enter worker (.taken urb)) :=
        h.enter rfl ⟨fun other hother => by cases hother; exact hhead, trivial⟩
      refine ⟨⟨h.limited, hentered.sound.state, fun other => ?_, hentered.sound.places⟩,
        hentered.line⟩
      by_cases hother : other = worker
      · subst hother
        simp only [update_self]
        intro u hu
        exact h.queues other u (by rw [hqueue]; exact List.mem_cons_of_mem _ hu)
      · simp only [update_of_ne hother]
        exact h.queues other
  | taken urb =>
    dsimp only
    split_ifs
    · have hentered : x.Steps (worker ≠ .control) (x.enter worker (.started urb)) :=
        h.enter rfl (hok.next rfl trivial)
      exact ⟨⟨h.limited, hentered.sound.state, h.queues, hentered.sound.places⟩, hentered.line⟩
    · exact h.enter rfl WorkerPlace.ok_idle
  | started urb => exact h.begin hplace
  | configuring urb coding after =>
    cases answer with
    | failed => exact h.stop worker
    | ok bytes =>
      have hentered : x.Steps (worker ≠ .control)
          (x.enter worker (afterConfigure urb coding after)) := by
        cases after <;> exact h.enter rfl (hok.next rfl hok.2)
      exact ⟨⟨h.limited, hentered.sound.state, h.queues, hentered.sound.places⟩, absurd hok.2⟩
  | storing urb coding =>
    exact h.locked h.holds (fun _ => h.state) (absurd hok.2) rfl
      (hok.next rfl (belongs_reply _ urb (some []) fun _ => rfl))
  | raising urb value =>
    have hflush : ∀ n, x.state.Holds x.accepted n → ({ x.state with
        lineState := value, notification := serialState }.flush).1.Holds x.accepted n := by
      intro n hn
      have hn' : { x.state with lineState := value, notification := serialState }.Holds
        x.accepted n := hn
      exact hn'.flush h.limited
    exact h.locked (hflush _ h.holds) (fun _ => hflush _ h.state) (absurd hok.2) rfl
      (hok.next rfl (belongs_reply _ urb (some []) fun _ => rfl))
  | spacing urb =>
    obtain rfl : worker = .dap := hok.2
    dsimp only
    split_ifs with hspace
    · exact h.enter_dap (Nat.le_of_lt_succ hspace) (hok.next rfl rfl)
    · exact h.enter rfl (hok.next rfl rfl)
  | waiting urb =>
    dsimp only
    split_ifs
    · exact h.locked h.holds (fun _ => h.state) (fun _ => ⟨rfl, rfl⟩) rfl (hok.next rfl hok.2)
    · exact h.steps
  | rechecking urb =>
    obtain rfl : worker = .dap := hok.2
    have hroom := h.state.2
    rw [hplace] at hroom
    dsimp only
    split_ifs
    · exact h.enter_dap hroom (hok.next rfl rfl)
    · exact h.enter rfl WorkerPlace.ok_idle
  | requesting urb =>
    obtain rfl : worker = .dap := hok.2
    have hroom := h.state.2
    rw [hplace] at hroom
    cases answer with
    | failed => exact h.stop _
    | ok response =>
      dsimp only
      split_ifs
      · have hentered : x.Steps _ (x.enter .dap (.answered urb response)) :=
          h.enter_dap hroom (hok.next rfl rfl)
        exact ⟨⟨h.limited, hentered.sound.state, h.queues, hentered.sound.places⟩, hentered.line⟩
      · exact h.stop _
  | answered urb response =>
    -- the response waits with the others, which leaves at most four
    obtain rfl : worker = .dap := hok.2
    have hroom := h.state.2
    rw [hplace] at hroom
    have hpush :
        { x.state with responses := x.state.responses ++ [response] }.Holds x.accepted 4 := by
      refine ⟨h.state.1, ?_⟩
      rw [List.length_append, List.length_singleton]
      exact Nat.succ_le_succ hroom
    have hnil : ([] : List Byte).length ≤ urb.size := Nat.zero_le _
    have hcomplete := hpush.complete h.limited (hok.1 urb rfl).1 hnil 0
    have hline := UsbState.sameLine_complete
      { x.state with responses := x.state.responses ++ [response] } urb [] 0
    have hflush := UsbState.sameLine_flush
      ({ x.state with responses := x.state.responses ++ [response] }.complete urb [] 0).1
    dsimp only
    split_ifs
    · exact h.locked (hcomplete.flush h.limited) (absurd rfl)
        (fun _ => ⟨hflush.1.trans hline.1, hflush.2.trans hline.2⟩) rfl WorkerPlace.ok_idle
    · exact h.locked hcomplete (absurd rfl) (fun _ => hline) rfl WorkerPlace.ok_idle
  | writing urb =>
    cases answer with
    | failed => exact h.stop _
    | ok bytes => exact h.enter rfl (hok.next rfl ⟨Nat.zero_le _, fun _ => rfl⟩)
  | finishing urb data status =>
    have hcomplete {n : ℕ} (hn : x.state.Holds x.accepted n) :=
      hn.complete h.limited (hok.1 urb rfl).1 hok.2.1 status
    exact h.locked (hcomplete h.holds) (fun _ => hcomplete h.state)
      (fun _ => x.state.sameLine_complete urb data status) rfl WorkerPlace.ok_idle
  | stopped => exact h.steps

theorem Sound.read (answer : BackendAnswer) : x.Steps other (x.read answer) := by
  have hother : ∀ {reader : ReaderPlace} {buffered reads : List Byte} {failed : Bool}
      {s : UsbState}, s.Holds x.accepted (x.places .dap).limit → x.state.SameLine s →
      x.Steps other { x with
        state := s, reader := reader, buffered := buffered, reads := reads, failed := failed } :=
    fun hs hline => ⟨⟨h.limited, hs, h.queues, h.places⟩, fun _ => ⟨rfl, hline.1, hline.2, rfl⟩⟩
  unfold UsbSession.read
  split
  next => split <;> exact hother h.state ⟨rfl, rfl⟩
  next =>
    split
    next => exact hother h.state ⟨rfl, rfl⟩
    next => split_ifs <;> exact hother h.state ⟨rfl, rfl⟩
  next =>
    split
    next => exact hother h.state ⟨rfl, rfl⟩
    next urb hurb =>
      have htake : (x.buffered.take (min urb.size x.buffered.length)).length ≤ urb.size := by simp
      have hcomplete := h.state.complete h.limited (h.state.of_firstInput hurb) htake 0
      have hline := x.state.sameLine_complete urb
        (x.buffered.take (min urb.size x.buffered.length)) 0
      dsimp only
      split_ifs
      · exact hother h.state ⟨rfl, rfl⟩
      · exact hother hcomplete hline
      · exact hother hcomplete hline
  next => exact h.steps

theorem Sound.step (action : UsbAction) :
    x.Steps (∀ answer, action ≠ .work .control answer) (step d x action) := by
  cases action with
  | receive header data => exact h.receive header data
  | work worker answer =>
    have hwork := h.work (d := d) worker answer
    exact ⟨hwork.sound, fun hne => hwork.line fun heq => hne answer (heq ▸ rfl)⟩
  | read answer => exact h.read answer
  | write =>
    unfold UsbSession.step
    dsimp only
    split_ifs
    · exact ⟨⟨h.limited, h.state, h.queues, h.places⟩, fun _ => ⟨rfl, rfl, rfl, rfl⟩⟩
    · exact h.steps
  | closeWriter => exact ⟨⟨h.limited, h.state, h.queues, h.places⟩, fun _ => ⟨rfl, rfl, rfl, rfl⟩⟩
  | fail => exact h.steps.fail

end

theorem sound_start : start.Sound where
  limited := by simp [start, Limited]
  state := ⟨⟨by simp [start, UsbState.start], by simp [start, UsbState.start],
    by simp [start, UsbState.start], by simp [start, UsbState.start]⟩, Nat.zero_le _⟩
  queues := by simp [start]
  places _ := WorkerPlace.ok_idle

theorem run_induct (Inv : UsbSession → Prop) (hstart : Inv start)
    (hstep : ∀ x action, Inv x → Inv (step d x action)) (actions : List UsbAction) :
    Inv (run d actions) :=
  List.foldlRecOn actions (step d) hstart fun x hx action _ => hstep x action hx

theorem sound_run (d : Descriptors) (actions : List UsbAction) : (run d actions).Sound :=
  run_induct UsbSession.Sound sound_start (fun _ action h => (h.step action).sound) actions

end UsbSession

/-- A packet is a RET_SUBMIT for this allocation. -/
def SentPacket.returns (arc : ℕ) : SentPacket → Bool
  | .submit urb _ => urb.arc = arc
  | .unlink _ _ => false

@[simp] theorem SentPacket.returns_submit (arc : ℕ) (urb : Urb) (packet : UsbPacket) :
    (SentPacket.submit urb packet).returns arc = decide (urb.arc = arc) := rfl

@[simp] theorem SentPacket.returns_unlink (arc : ℕ) (target : Option Urb) (packet : UsbPacket) :
    (SentPacket.unlink target packet).returns arc = false := rfl

@[simp] theorem SentPacket.arc?_submit (urb : Urb) (packet : UsbPacket) :
    (SentPacket.submit urb packet).arc? = some urb.arc := rfl

@[simp] theorem SentPacket.arc?_unlink (target : Option Urb) (packet : UsbPacket) :
    (SentPacket.unlink target packet).arc? = target.map Urb.arc := rfl

theorem UrbsSound.returns_once {accepted pending : List Urb} {sent : List SentPacket}
    (h : UrbsSound accepted pending sent) (arc : ℕ) : (sent.filter (·.returns arc)).length ≤ 1 := by
  have hcount : ∀ l : List SentPacket,
      (l.filter (·.returns arc)).length ≤ (l.filterMap SentPacket.arc?).count arc := by
    intro l
    induction l with
    | nil => simp
    | cons packet l ih =>
      cases packet with
      | submit urb packet => by_cases heq : urb.arc = arc <;> simp [heq, ih]
      | unlink target packet =>
        cases target with
        | none =>
          rw [List.filterMap_cons_none rfl]
          simpa using ih
        | some target =>
          simp only [List.filter_cons, List.filterMap_cons, List.count_cons, Option.map_some,
            SentPacket.returns_unlink, SentPacket.arc?_unlink, Bool.false_eq_true, if_false]
          omega
  have hnodup : (sent.filterMap SentPacket.arc?).Nodup := (List.nodup_append.mp h.once).2.1
  exact (hcount sent).trans (List.nodup_iff_count_le_one.mp hnodup arc)

theorem UrbsSound.unlinked {accepted pending : List Urb} {sent : List SentPacket}
    (h : UrbsSound accepted pending sent) {target urb : Urb} {packet other : UsbPacket}
    (hunlink : .unlink (some target) packet ∈ sent) (hsubmit : .submit urb other ∈ sent) :
    urb.arc ≠ target.arc := by
  intro heq
  have hnodup : (sent.filterMap SentPacket.arc?).Nodup := (List.nodup_append.mp h.once).2.1
  have hsymm : Std.Symm fun a b : SentPacket =>
      ∀ i, a.arc? = some i → ∀ j, b.arc? = some j → i ≠ j :=
    ⟨fun _ _ hab i hi j hj => (hab j hj i hi).symm⟩
  have hpairs := (List.pairwise_filterMap.mp hnodup).forall hsubmit hunlink (by simp)
  exact hpairs urb.arc rfl target.arc rfl heq

/-- What a session has answered, and the answer to its next UNLINK. -/
structure UsbSession.Answered (d : Descriptors) (x : UsbSession) : Prop where
  /-- An accepted URB gets at most one RET_SUBMIT. -/
  once : ∀ arc, (x.state.sent.filter (·.returns arc)).length ≤ 1
  /-- A RET_SUBMIT is for an accepted URB and fits it. -/
  fits : ∀ urb packet, .submit urb packet ∈ x.state.sent →
    x.accepted[urb.arc]? = some urb ∧ packet.Fits urb
  /-- The target of an UNLINK gets no RET_SUBMIT, neither before nor after it. -/
  unlinked : ∀ target packet, .unlink (some target) packet ∈ x.state.sent →
    ∀ urb other, .submit urb other ∈ x.state.sent → urb.arc ≠ target.arc
  /-- An UNLINK is answered with -104 exactly if its target is pending, unless there is no room
  for the answer. -/
  unlinks : ∀ header data urb, x.receiving = true → Urb.parse header = some urb →
    urb.command = 2 →
    (∃ target packet, (step d x (.receive header data)).state.sent =
        x.state.sent ++ [.unlink target packet] ∧
      packet.command = 4 ∧ packet.seq = urb.seq ∧
      (packet.status = -104 ↔ ∃ other ∈ x.state.pending, other.seq = urb.flags) ∧
      ∀ other, target = some other ↔ other ∈ x.state.pending ∧ other.seq = urb.flags) ∨
    (step d x (.receive header data)).failed = true ∧
      (step d x (.receive header data)).state.sent = x.state.sent
  /-- The numbers of the pending URBs are distinct. -/
  seqs : (x.state.pending.map Urb.seq).Nodup
  /-- At most four responses wait. -/
  responses : x.state.responses.length ≤ 4

theorem UsbState.unlinkTarget_iff {s : UsbState} (hseqs : (s.pending.map Urb.seq).Nodup)
    (urb other : Urb) :
    s.unlinkTarget urb = some other ↔ other ∈ s.pending ∧ other.seq = urb.flags := by
  constructor
  · intro h
    exact ⟨List.mem_of_find?_eq_some h, by simpa using List.find?_some h⟩
  · rintro ⟨hmem, hseq⟩
    cases hfind : s.unlinkTarget urb with
    | none => exact absurd (List.find?_eq_none.mp hfind other hmem) (by simpa using hseq)
    | some found =>
      have hfound : found.seq = urb.flags := by simpa using List.find?_some hfind
      have heq := List.inj_on_of_nodup_map hseqs (List.mem_of_find?_eq_some hfind) hmem
        (hfound.trans hseq.symm)
      rw [heq]

theorem UsbSession.receive_unlink {d : Descriptors} {x : UsbSession} {header : List Byte}
    {urb : Urb} (hreceiving : x.receiving = true) (hparse : Urb.parse header = some urb)
    (hcommand : urb.command = 2) (data : List Byte) :
    step d x (.receive header data) = x.unlink urb := by
  simp only [step, receive, hreceiving, hparse, hcommand, Bool.not_true, Bool.false_eq_true,
    if_false, if_true]

/-- In every run of the tasks of a USB/IP session, also after one of them has failed: an accepted
URB gets at most one RET_SUBMIT, which has its number, and a length that is at most the size of
the URB and, for an input, that of the attached data; an UNLINK is answered with -104 exactly if
its target is pending, which then never gets a RET_SUBMIT; the numbers of the pending URBs are
distinct; and at most four responses wait. -/
theorem usbip_completion (d : Descriptors) (actions : List UsbAction) :
    (UsbSession.run d actions).Answered d := by
  have h := UsbSession.sound_run d actions
  generalize UsbSession.run d actions = x at h ⊢
  refine ⟨h.state.1.returns_once, fun urb packet hsent => h.state.1.about _ hsent,
    fun target packet hunlink urb other hsubmit => h.state.1.unlinked hunlink hsubmit,
    fun header data urb hreceiving hparse hcommand => ?_, h.state.1.seqs,
    h.state.2.trans (WorkerPlace.limit_le _)⟩
  rw [UsbSession.receive_unlink hreceiving hparse hcommand, UsbSession.unlink]
  have htarget := UsbState.unlinkTarget_iff h.state.1.seqs urb
  rcases x.state.unlink_cases urb with hunlink | hunlink
  · refine .inl ⟨_, UsbState.retUnlink urb (x.state.unlinkTarget urb), ?_, rfl, rfl, ?_, htarget⟩
    · rw [hunlink]
      unfold UsbSession.received
      split_ifs <;> rfl
    · cases hfind : x.state.unlinkTarget urb with
      | none =>
        simp only [UsbState.retUnlink, Option.isSome_none, Bool.false_eq_true, if_false]
        constructor
        · intro h
          omega
        · rintro ⟨other, hother⟩
          rw [(htarget other).mpr hother] at hfind
          cases hfind
      | some other => simpa [UsbState.retUnlink] using ⟨other, (htarget other).mp hfind⟩
  · refine .inr ?_
    rw [hunlink]
    exact ⟨rfl, rfl⟩

end AirDap
