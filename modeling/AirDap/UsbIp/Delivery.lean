import AirDap.UsbIp.Streams

/-! Data do not wait beside an URB that could take them: which parts of a session see to that,
and the one that does not. -/
namespace AirDap

namespace UsbState

/-- The inputs that are pending on an endpoint. -/
def inputs (s : UsbState) (ep : Word) : List Urb :=
  s.pending.filter fun urb => urb.ep = ep ∧ urb.direction = .input

variable {s t : UsbState} {urb : Urb} {data : List Byte} {status : ℤ} {ep : Word}

theorem firstInput_eq_head (s : UsbState) (ep : Word) : s.firstInput ep = (s.inputs ep).head? :=
  List.head?_filter.symm

/-- No two pending URBs are one allocation. -/
def Distinct (s : UsbState) : Prop := (s.pending.map Urb.arc).Nodup

/-- `complete` takes the first input of an endpoint from the pending URBs, and no other. -/
theorem complete_inputs (hs : s.Distinct) (hurb : s.firstInput ep = some urb)
    (h : s.complete urb data status = (t, true)) :
    t.Distinct ∧ t.inputs ep = (s.inputs ep).tail ∧
      ∀ other, other ≠ ep → t.inputs other = s.inputs other := by
  have hpending : t.pending = s.pending.eraseP fun other => other.arc = urb.arc := by
    rcases s.complete_cases urb data status with ⟨hnot, -⟩ | ⟨-, hcase⟩ | ⟨-, hcase⟩
    · rw [present_of_firstInput hurb] at hnot
      cases hnot
    · rw [hcase, Prod.mk.injEq] at h
      rw [← h.1]
      rfl
    · rw [hcase] at h
      cases h
  obtain ⟨hp, before, after, hsplit, hbefore⟩ := List.find?_eq_some_iff_append.mp hurb
  have harcs := hs
  rw [Distinct, hsplit, List.map_append, List.map_cons, List.nodup_append] at harcs
  have herase : s.pending.eraseP (fun other => other.arc = urb.arc) = before ++ after := by
    rw [hsplit, List.eraseP_append_right, List.eraseP_cons_of_pos (by simp)]
    intro other hother harc
    exact harcs.2.2 other.arc (List.mem_map_of_mem hother) urb.arc (List.mem_cons_self ..)
      (by simpa using harc)
  rw [herase] at hpending
  have hep : urb.ep = ep ∧ urb.direction = .input := by simpa using hp
  refine ⟨?_, ?_, ?_⟩
  · rw [Distinct, hpending]
    refine hs.sublist ?_
    rw [hsplit]
    exact ((List.sublist_cons_self _ _).append_left _).map _
  · have hnone : before.filter (fun urb => urb.ep = ep ∧ urb.direction = .input) = [] := by
      rw [List.filter_eq_nil_iff]
      intro other hother
      have hnot := hbefore other hother
      rw [Bool.not_eq_true'] at hnot
      rw [hnot]
      exact Bool.false_ne_true
    simp only [inputs, hpending, hsplit, List.filter_append, hnone, List.nil_append,
      List.filter_cons, hep, and_self, decide_true, if_true, List.tail_cons]
  · intro other hne
    have hnot : ¬ (urb.ep = other ∧ urb.direction = .input) := by
      intro h
      exact hne (h.1.symm.trans hep.1)
    simp only [inputs, hpending, hsplit, List.filter_append, List.filter_cons, hnot,
      decide_false, Bool.false_eq_true, if_false]

theorem deliver_inputs (hs : s.Distinct) {response : List Byte} {rest : List (List Byte)}
    (hurb : s.firstInput 1 = some urb) (h : s.deliver urb response rest = (t, true)) :
    t.Distinct ∧ t.inputs 1 = (s.inputs 1).tail ∧ t.inputs 2 = s.inputs 2 ∧
      t.notification = s.notification := by
  obtain ⟨u, hcomplete, hpending, -, hnotification, -⟩ := deliver_cases h
  have hs' : { s with responses := rest }.Distinct := hs
  have hurb' : { s with responses := rest }.firstInput 1 = some urb := hurb
  obtain ⟨hdistinct, hone, hother⟩ := complete_inputs hs' hurb' hcomplete
  have hinputs : ∀ ep, t.inputs ep = u.inputs ep := by
    intro ep
    rw [inputs, hpending, inputs]
  refine ⟨?_, (hinputs 1).trans hone, (hinputs 2).trans (hother 2 (by decide)), ?_⟩
  · rw [Distinct, hpending]
    exact hdistinct
  · rw [hnotification, (complete_frame_of_eq hcomplete).2.1]

theorem deliverAll_inputs (hs : s.Distinct) {rounds : ℕ} (hrounds : (s.inputs 1).length ≤ rounds)
    (h : deliverAll rounds s = (t, true)) :
    t.Distinct ∧ (t.responses = [] ∨ t.inputs 1 = []) ∧ t.inputs 2 = s.inputs 2 ∧
      t.notification = s.notification := by
  induction rounds generalizing s with
  | zero =>
    rw [deliverAll, Prod.mk.injEq] at h
    obtain ⟨rfl, -⟩ := h
    exact ⟨hs, .inr (List.length_eq_zero_iff.mp (Nat.le_zero.mp hrounds)), rfl, rfl⟩
  | succ rounds ih =>
    unfold deliverAll at h
    split at h
    next response rest urb hresponses hurb =>
      cases hdeliver : s.deliver urb response rest with
      | mk u ok =>
        rw [hdeliver] at h
        cases ok with
        | false => cases h
        | true =>
          obtain ⟨hdistinct, hone, htwo, hnotification⟩ := deliver_inputs hs hurb hdeliver
          have hless : (u.inputs 1).length ≤ rounds := by
            rw [hone, List.length_tail]
            omega
          obtain ⟨hd, hdone, htwo', hnotification'⟩ := ih hdistinct hless h
          exact ⟨hd, hdone, htwo'.trans htwo, hnotification'.trans hnotification⟩
    next hstop =>
      rw [Prod.mk.injEq] at h
      obtain ⟨rfl, -⟩ := h
      refine ⟨hs, ?_, rfl, rfl⟩
      cases hresponses : s.responses with
      | nil => exact .inl rfl
      | cons response rest =>
        refine .inr ?_
        cases hinputs : s.inputs 1 with
        | nil => rfl
        | cons urb others =>
          refine absurd ?_ (hstop response rest urb hresponses)
          rw [firstInput_eq_head, hinputs]
          rfl

/-- The notification finds an URB that takes all of it, or no more than one. -/
def Taken (s : UsbState) : Prop :=
  s.notification = [] ∨ (s.inputs 2).length ≤ 1 ∨
    ∃ urb, s.firstInput 2 = some urb ∧ s.notification.length ≤ urb.size

/-- Nothing waits beside an input that could take it. -/
def Delivered (s : UsbState) : Prop :=
  (s.responses = [] ∨ s.inputs 1 = []) ∧ (s.notification = [] ∨ s.inputs 2 = [])

theorem notify_delivered (hs : s.Distinct) (htaken : s.Taken)
    (hone : s.responses = [] ∨ s.inputs 1 = []) (h : s.notify = (t, true)) : t.Delivered := by
  unfold notify at h
  split at h
  next urb hurb =>
    split_ifs at h with hempty
    · rw [Prod.mk.injEq] at h
      obtain ⟨rfl, -⟩ := h
      exact ⟨hone, .inl hempty⟩
    · have hs' : { s with notification :=
          s.notification.drop (min urb.size s.notification.length) }.Distinct := hs
      have hurb' : { s with notification :=
          s.notification.drop (min urb.size s.notification.length) }.firstInput 2 = some urb :=
        hurb
      obtain ⟨-, htwo, hother⟩ := complete_inputs hs' hurb' h
      obtain ⟨hresponses, hnotification, -, -⟩ := complete_frame_of_eq h
      refine ⟨?_, ?_⟩
      · rw [hresponses, hother 1 (by decide)]
        exact hone
      · rw [hnotification, htwo]
        rcases htaken with hnil | hfew | ⟨other, hother, hsize⟩
        · exact absurd hnil hempty
        · refine .inr (List.length_eq_zero_iff.mp ?_)
          have hlength : ((s.inputs 2).tail).length ≤ 0 := by
            rw [List.length_tail]
            omega
          exact Nat.le_zero.mp hlength
        · rw [hurb, Option.some.injEq] at hother
          subst hother
          refine .inl ?_
          dsimp only
          rw [Nat.min_eq_right hsize, List.drop_length]
  next hnone =>
    rw [Prod.mk.injEq] at h
    obtain ⟨rfl, -⟩ := h
    rw [firstInput_eq_head, List.head?_eq_none_iff] at hnone
    exact ⟨hone, .inr hnone⟩

theorem flush_delivered (hs : s.Distinct) (htaken : s.Taken) (h : s.flush = (t, true)) :
    t.Delivered := by
  unfold flush at h
  cases hall : deliverAll s.pending.length s with
  | mk u ok =>
    rw [hall] at h
    cases ok with
    | false => cases h
    | true =>
      obtain ⟨hdistinct, hone, htwo, hnotification⟩ :=
        deliverAll_inputs hs (List.length_filter_le ..) hall
      have htaken' : u.Taken := by
        rw [Taken, firstInput_eq_head, htwo, hnotification, ← firstInput_eq_head]
        exact htaken
      simp only [Bool.not_true, Bool.false_eq_true, if_false] at h
      split_ifs at h
      · have hdistinct' : { u with space := true }.Distinct := hdistinct
        have htaken'' : { u with space := true }.Taken := htaken'
        exact notify_delivered hdistinct' htaken'' hone h
      · exact notify_delivered hdistinct htaken' hone h

theorem Delivered.of_sublist (h : s.Delivered) (hpending : t.pending.Sublist s.pending)
    (hresponses : t.responses = s.responses) (hnotification : t.notification = s.notification) :
    t.Delivered := by
  have hnil : ∀ ep, s.inputs ep = [] → t.inputs ep = [] := by
    intro ep hs
    exact List.sublist_nil.mp (hs ▸ hpending.filter _)
  refine ⟨?_, ?_⟩
  · rw [hresponses]
    exact h.1.imp_right (hnil 1)
  · rw [hnotification]
    exact h.2.imp_right (hnil 2)

theorem inputs_push (s : UsbState) (urb : Urb) (ep : Word) : (s.push urb).inputs ep =
    s.inputs ep ++ if urb.ep = ep ∧ urb.direction = .input then [urb] else [] := by
  simp only [inputs, push, List.filter_append, List.filter_cons, List.filter_nil,
    decide_eq_true_eq]

theorem complete_sublist (h : s.complete urb data status = (t, true)) :
    t.pending.Sublist s.pending := by
  rcases s.complete_cases urb data status with ⟨-, hcase⟩ | ⟨-, hcase⟩ | ⟨-, hcase⟩
  · rw [hcase, Prod.mk.injEq] at h
    rw [h.1]
  · rw [hcase, Prod.mk.injEq] at h
    rw [← h.1]
    exact List.eraseP_sublist
  · rw [hcase] at h
    cases h

end UsbState

namespace Flow

variable {f f' : Flow} {raises : Prop}

/-- A new URB is another allocation than the pending ones. -/
def Fresh (f : Flow) : Prop := f.state.Distinct ∧ ∀ urb ∈ f.state.pending, urb.arc < f.accepted

theorem Fresh.push (h : f.Fresh) {urb : Urb} (harc : urb.arc = f.accepted) :
    (f.state.push urb).Distinct := by
  have hnew : ∀ arc ∈ f.state.pending.map Urb.arc, arc ≠ urb.arc := by
    intro arc hmem
    obtain ⟨other, hother, rfl⟩ := List.mem_map.mp hmem
    exact harc ▸ (h.2 other hother).ne
  rw [UsbState.Distinct, UsbState.push, List.map_append, List.nodup_append]
  refine ⟨h.1, by simp, ?_⟩
  simpa using hnew

theorem Fresh.refuse (h : f.Fresh) {urb : Urb} (harc : urb.arc = f.accepted) {status : ℤ}
    {s : UsbState} (hcomplete : (f.state.push urb).complete urb [] status = (s, true)) :
    s.pending = f.state.pending := by
  have hpresent : (f.state.push urb).present urb = true :=
    UsbState.present_iff.mpr ⟨urb, List.mem_append_right _ (List.mem_singleton_self urb), rfl⟩
  have herase : (f.state.pending ++ [urb]).eraseP (fun other => other.arc = urb.arc) =
      f.state.pending := by
    rw [List.eraseP_append_right, List.eraseP_cons_of_pos (by simp), List.append_nil]
    intro other hother
    simpa using harc ▸ (h.2 other hother).ne
  rcases (f.state.push urb).complete_cases urb [] status with ⟨hnot, -⟩ | ⟨-, hcase⟩ | ⟨-, hcase⟩
  · rw [hpresent] at hnot
    cases hnot
  · rw [hcase, Prod.mk.injEq] at hcomplete
    rw [← hcomplete.1]
    exact herase
  · rw [hcase] at hcomplete
    cases hcomplete

/-- A step keeps that nothing waits beside an input that could take it, if one that handles
SET_CONTROL_LINE_STATE finds no two inputs or a first one that takes the whole notification. -/
theorem delivered_step (hfresh : f.Fresh) (h : f.state.Delivered)
    (hraises : raises → (f.state.inputs 2).length ≤ 1 ∨
      ∃ urb, f.state.firstInput 2 = some urb ∧ 10 ≤ urb.size)
    (hstep : FlowStep raises f f') : f'.state.Delivered := by
  cases hstep with
  | quiet s order hsame horder =>
    exact h.of_sublist (by rw [hsame.1]) hsame.2.1 hsame.2.2.1
  | complete urb data status s hcomplete hdata =>
    obtain ⟨hresponses, hnotification, -⟩ := UsbState.complete_frame_of_eq hcomplete
    exact h.of_sublist (UsbState.complete_sublist hcomplete) hresponses hnotification
  | unlink urb s hunlink =>
    obtain ⟨hresponses, hnotification, hpending, -⟩ := UsbState.unlink_frame hunlink
    exact h.of_sublist (hpending ▸ List.eraseP_sublist) hresponses hnotification
  | queue urb order harc hurb horder =>
    have hnone : ∀ ep : Word, ep ≠ 0 → (f.state.push urb).inputs ep = f.state.inputs ep := by
      intro ep hep
      rw [UsbState.inputs_push, if_neg, List.append_nil]
      rintro ⟨heq, hinput⟩
      rcases hurb with houtput | hzero
      · rw [houtput] at hinput
        cases hinput
      · exact hep (heq.symm.trans hzero)
    refine ⟨?_, ?_⟩
    · dsimp only
      rw [hnone 1 (by decide)]
      exact h.1
    · dsimp only
      rw [hnone 2 (by decide)]
      exact h.2
  | refuse urb status s harc hcomplete =>
    obtain ⟨hresponses, hnotification, -⟩ := UsbState.complete_frame_of_eq hcomplete
    exact h.of_sublist (by rw [hfresh.refuse harc hcomplete]) hresponses hnotification
  | offer urb s harc hflush =>
    refine UsbState.flush_delivered (hfresh.push harc) ?_ hflush
    rcases h.2 with hnil | hnone
    · exact .inl hnil
    · refine .inr (.inl ?_)
      rw [UsbState.inputs_push, hnone, List.nil_append]
      split_ifs
      · exact le_refl _
      · exact Nat.zero_le _
  | raise value s hraise hflush =>
    refine UsbState.flush_delivered (s := { f.state with
      lineState := value, notification := UsbSession.serialState }) hfresh.1 ?_ hflush
    rcases hraises hraise with hfew | ⟨urb, hurb, hsize⟩
    · exact .inr (.inl hfew)
    · exact .inr (.inr ⟨urb, hurb, hsize⟩)
  | hold urb response order hheld horder hserves => exact h
  | release urb s t hurb hcomplete hflush =>
    have hsub := UsbState.complete_sublist hcomplete
    obtain ⟨-, hnotification, -⟩ := UsbState.complete_frame_of_eq hcomplete
    have hdistinct : t.Distinct := hfresh.1.sublist (hsub.map _)
    refine UsbState.flush_delivered hdistinct ?_ hflush
    rcases h.2 with hnil | hnone
    · exact .inl (hnotification.trans hnil)
    · refine .inr (.inl ?_)
      have hle : (t.inputs 2).length ≤ (f.state.inputs 2).length :=
        (hsub.filter _).length_le
      rw [hnone] at hle
      exact hle.trans (Nat.zero_le _)
  | poll reader hreader => exact h
  | fetch capacity bytes hreader => exact h
  | deliver urb s hurb hcomplete =>
    obtain ⟨hresponses, hnotification, -⟩ := UsbState.complete_frame_of_eq hcomplete
    exact h.of_sublist (UsbState.complete_sublist hcomplete) hresponses hnotification

end Flow

namespace UsbSession

theorem Sound.fresh {x : UsbSession} (h : x.Sound) : x.flow.Fresh := by
  refine ⟨(List.nodup_append.mp h.state.1.once).1, fun urb hurb => ?_⟩
  exact (List.getElem?_eq_some_iff.mp (h.state.1.known urb hurb)).1

/-- The notification of SET_CONTROL_LINE_STATE would meet two inputs or more, the first of which
is too short for it. -/
def Clogged (x : UsbSession) : Prop :=
  2 ≤ (x.state.inputs 2).length ∧ ∀ urb, x.state.firstInput 2 = some urb → urb.size < 10

theorem delivered_run (d : Descriptors) (actions : List UsbAction)
    (hraises : ∀ before action after, actions = before ++ action :: after →
      (run d before).Raises action → ¬ (run d before).Clogged)
    (hok : (run d actions).failed = false) : (run d actions).state.Delivered := by
  refine Concurrency.foldl_induct (fun x : UsbSession => x.failed = false → x.state.Delivered)
    (fun x action => x.Sound ∧ (x.Raises action → ¬ x.Clogged)) (fun _ => ⟨.inl rfl, .inl rfl⟩)
    ?_ actions (fun before _ _ h => ⟨sound_run d before, hraises _ _ _ h⟩) hok
  rintro x action ⟨hx, hmeets⟩ hinv hok
  obtain ⟨hfailed, hstep⟩ := flows_step hx action hok
  refine Flow.delivered_step hx.fresh (hinv hfailed) (fun hraise => ?_) hstep
  have hnot := hmeets hraise
  unfold Clogged at hnot
  by_contra hneither
  rw [not_or] at hneither
  refine hnot ⟨by have := hneither.1; simp only [flow] at this; omega, fun urb hurb => ?_⟩
  by_contra hsize
  exact hneither.2 ⟨urb, hurb, Nat.le_of_not_lt hsize⟩

end UsbSession

/-- In every run of the tasks of a USB/IP session that handles no SET_CONTROL_LINE_STATE while two
or more inputs are pending on endpoint 2, the first of them for less than ten bytes: as long as no
task has failed, no response waits while an input is pending on endpoint 1, and no byte of a
notification while one is pending on endpoint 2. -/
theorem usbip_delivers (d : Descriptors) (actions : List UsbAction)
    (hraises : ∀ before action after, actions = before ++ action :: after →
      (UsbSession.run d before).Raises action → ¬ (UsbSession.run d before).Clogged)
    (hok : (UsbSession.run d actions).failed = false) :
    ((∃ urb ∈ (UsbSession.run d actions).state.pending, urb.ep = 1 ∧ urb.direction = .input) →
      (UsbSession.run d actions).state.responses = []) ∧
    ((∃ urb ∈ (UsbSession.run d actions).state.pending, urb.ep = 2 ∧ urb.direction = .input) →
      (UsbSession.run d actions).state.notification = []) := by
  have h := UsbSession.delivered_run d actions hraises hok
  have hne : ∀ ep, (∃ urb ∈ (UsbSession.run d actions).state.pending,
      urb.ep = ep ∧ urb.direction = .input) →
      (UsbSession.run d actions).state.inputs ep ≠ [] := by
    rintro ep ⟨urb, hurb, hinput⟩ hnil
    have hmem : urb ∈ (UsbSession.run d actions).state.inputs ep :=
      List.mem_filter.mpr ⟨hurb, by simpa using hinput⟩
    rw [hnil] at hmem
    cases hmem
  exact ⟨fun hex => h.1.resolve_right (hne 1 hex), fun hex => h.2.resolve_right (hne 2 hex)⟩

/-- SET_CONTROL_LINE_STATE with one input for sixteen bytes on endpoint 2, then another input. -/
def notifiedRun : List UsbAction :=
  [.receive (submitHeader 1 1 2 16 (List.replicate 8 0)) [],
    .receive (submitHeader 2 0 0 0 [0x21, 0x22, 0, 0, 1, 0, 0, 0]) []] ++
    List.replicate 4 (.work .control .failed) ++
    [.receive (submitHeader 3 1 2 4 (List.replicate 8 0)) []]

/-- The first input gets the whole notification, and nothing waits beside the second. -/
theorem notifiedRun_delivers :
    (UsbSession.run ⟨fun _ _ => none, []⟩ notifiedRun).state.returned 2 = UsbSession.serialState ∧
      (UsbSession.run ⟨fun _ _ => none, []⟩ notifiedRun).state.notification = [] := by
  refine ⟨by decide +kernel, (usbip_delivers ⟨fun _ _ => none, []⟩ notifiedRun ?_
    (by decide +kernel)).2 (by decide +kernel)⟩
  intro before action after heq _ hclogged
  have hfew : ∀ n < 7, ((UsbSession.run ⟨fun _ _ => none, []⟩
      (notifiedRun.take n)).state.inputs 2).length < 2 := by decide +kernel
  have hlength : before.length < 7 := by
    have h := congrArg List.length heq
    simp only [notifiedRun, List.length_append, List.length_cons, List.length_replicate,
      List.length_nil] at h
    omega
  have htake : notifiedRun.take before.length = before := by
    rw [heq, List.take_left]
  have hless := hfew before.length hlength
  rw [htake] at hless
  exact absurd hclogged.1 (Nat.not_le.mpr hless)

/-- Two inputs for four bytes on endpoint 2, and then SET_CONTROL_LINE_STATE. -/
def cloggedRun : List UsbAction :=
  [.receive (submitHeader 1 1 2 4 (List.replicate 8 0)) [],
    .receive (submitHeader 2 1 2 4 (List.replicate 8 0)) [],
    .receive (submitHeader 3 0 0 0 [0x21, 0x22, 0, 0, 1, 0, 0, 0]) []] ++
    List.replicate 4 (.work .control .failed)

/-- Four bytes of the notification are returned, and the other six wait beside the second input. -/
theorem cloggedRun_withholds :
    (UsbSession.run ⟨fun _ _ => none, []⟩ cloggedRun).failed = false ∧
    (UsbSession.run ⟨fun _ _ => none, []⟩ cloggedRun).state.notification = [1, 0, 2, 0, 0, 0] ∧
    ∃ urb ∈ (UsbSession.run ⟨fun _ _ => none, []⟩ cloggedRun).state.pending,
      urb.ep = 2 ∧ urb.direction = .input := by
  decide +kernel

end AirDap
