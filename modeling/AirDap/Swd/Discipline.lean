import AirDap.Swd.Target

/-! Who drives the line during a transfer. -/
namespace AirDap
open Concurrency

namespace Swd

/-- One attempt as the two sides share the line: after the request the host sends nothing until
it has seen the clocks of the turnaround back and drives again. -/
inductive SharesLine (turnaroundCycles : ℕ) (request : Request) : List LineEvent → Prop
  | mk (target : List (List Bool)) (back : List Bool) (host : List (List Bool))
      (hback : back.length = turnaroundCycles) :
      SharesLine turnaroundCycles request
        (.sent (sentRequest request) :: .direction false :: target.map .seen ++
          [.seen back, .direction true] ++ host.map .sent)

/-- The calls that a transfer has made, one after the other. -/
def history : List LineEvent → (c : WireCall) → c.Answer → List LineEvent → Prop :=
  lineExec fun calls line calls' => calls' = calls ++ [line]

/-- The attempts so far share the line. -/
def Shared (engine : Engine) (request : Request) (calls : List LineEvent) : Prop :=
  ∃ attempts : List (List LineEvent), calls = taking engine ++ attempts.flatten ∧
    ∀ lines ∈ attempts, SharesLine engine.turnaroundCycles.toNat request lines

/-- What a transfer has done when it returns: no check of the direction has failed, each attempt
shares the line, the host drives at the end, and the caller's word is another one only if the
last data phase was that of a read with even parity. -/
structure Disciplined (engine : Engine) (request : Request) (data : Word) (r : Result)
    (calls : List LineEvent) : Prop where
  checked : r.error ≠ .invalidState
  shared : Shared engine request calls
  driving : r.engine.hostOutput = true
  word : r.data ≠ data → request.direction = .read ∧ r.error = .ok ∧ r.ack = ackOk ∧
    ∃ (before : List LineEvent) (ackBits bs back : List Bool) (idle : List (List Bool)),
      calls = before ++ [.seen ackBits, .seen bs, .seen back, .direction true] ++ idle.map .sent ∧
        ackOf ackBits = ackOk ∧ bs.length = dataBitCount ∧ Wire.parity bs = false ∧
        r.data = Wire.ofBits 32 bs

section Attempts

variable {engine : Engine} {request : Request} {data : Word} {ack : Byte} {lines : List LineEvent}
  {r : Result}

theorem idleLines_sent (rounds remaining : ℕ) :
    ∃ host : List (List Bool), idleLines rounds remaining = host.map .sent := by
  induction rounds generalizing remaining with
  | zero => exact ⟨[], rfl⟩
  | succ rounds ih =>
    rw [idleLines]
    split_ifs
    · exact ⟨[], rfl⟩
    · obtain ⟨host, hhost⟩ := ih (remaining - idleChunk remaining)
      exact ⟨_ :: host, by rw [hhost, List.map_cons]⟩

theorem closing_sent (engine : Engine) (back : List Bool) : ∃ host : List (List Bool),
    closing engine back = [.seen back, .direction true] ++ host.map .sent := by
  obtain ⟨host, hhost⟩ := idleLines_sent (closingIdle engine) (closingIdle engine)
  exact ⟨host, by rw [closing, hhost]⟩

theorem writing_sent (engine : Engine) (back : List Bool) (dataBits : BitVec 64) :
    ∃ host : List (List Bool),
      writing engine back dataBits = [.seen back, .direction true] ++ host.map .sent := by
  obtain ⟨host, hhost⟩ := idleLines_sent (engine.idleCycles.toNat - writeEmbeddedIdleCycles)
    (engine.idleCycles.toNat - writeEmbeddedIdleCycles)
  exact ⟨_ :: host, by rw [writing, hhost, List.map_cons]; rfl⟩

theorem AfterAck.shares (h : AfterAck engine request data ack lines r) :
    ∃ (target : List (List Bool)) (back : List Bool) (host : List (List Bool)),
      back.length = engine.turnaroundCycles.toNat ∧
        lines = target.map .seen ++ [.seen back, .direction true] ++ host.map .sent := by
  cases h with
  | @protocolError bs back _ _ hback | @refusedRead bs back _ _ _ _ hback
  | @read bs back _ _ _ hback =>
    obtain ⟨host, hhost⟩ := closing_sent engine back
    exact ⟨[bs], back, host, hback, by rw [hhost]; rfl⟩
  | @refused back _ _ hback =>
    obtain ⟨host, hhost⟩ := closing_sent engine back
    exact ⟨[], back, host, hback, hhost⟩
  | @refusedWrite back _ _ _ hback | @write back _ _ hback =>
    obtain ⟨host, hhost⟩ := writing_sent engine back _
    exact ⟨[], back, host, hback, hhost⟩

theorem Attempt.shares (h : Attempt engine request data lines r) :
    SharesLine engine.turnaroundCycles.toNat request lines := by
  obtain @⟨ignored, ackBits, _, _, _, _, hafter⟩ := h
  obtain ⟨target, back, host, hback, rfl⟩ := hafter.shares
  obtain ⟨seen, hseen⟩ : ∃ seen : List (List Bool), skipped ignored = seen.map .seen := by
    rw [skipped]
    split_ifs
    · exact ⟨[], rfl⟩
    · exact ⟨[ignored], rfl⟩
  have hshares : SharesLine engine.turnaroundCycles.toNat request _ :=
    .mk (seen ++ [ackBits] ++ target) back host hback
  rw [opening, hseen]
  simpa using hshares

theorem Attempt.error_ne (h : Attempt engine request data lines r) : r.error ≠ .invalidState := by
  obtain ⟨_, _, hafter⟩ := h
  cases hafter with
  | read =>
    dsimp only
    split_ifs <;> simp
  | _ => simp

theorem receivedWord_eq (bs : List Bool) : receivedWord bs = Wire.ofBits 32 bs := by
  apply BitVec.eq_of_getLsbD_eq
  intro i hi
  rw [receivedWord, BitVec.getLsbD_setWidth, Wire.getLsbD_ofBits, Wire.getLsbD_ofBits]
  simp [hi, show i < 64 by omega]

theorem Attempt.word (h : Attempt engine request data lines r) (hne : r.data ≠ data) :
    request.direction = .read ∧ r.error = .ok ∧ r.ack = ackOk ∧
      ∃ (before : List LineEvent) (ackBits bs back : List Bool) (idle : List (List Bool)),
        lines = before ++ [.seen ackBits, .seen bs, .seen back, .direction true] ++
          idle.map .sent ∧ ackOf ackBits = ackOk ∧ bs.length = dataBitCount ∧
          Wire.parity bs = false ∧ r.data = Wire.ofBits 32 bs := by
  obtain @⟨ignored, ackBits, _, _, _, _, hafter⟩ := h
  cases hafter with
  | @read bs back hack hread hbs hback =>
    have hparity : ParityMatches bs := by
      by_contra hparity
      exact hne (if_neg hparity)
    obtain ⟨idle, hidle⟩ := closing_sent engine back
    refine ⟨hread, if_pos hparity, hack,
      .sent (sentRequest request) :: .direction false :: skipped ignored, ackBits, bs, back, idle,
      ?_, hack, hbs, (parityMatches_iff hbs).mp hparity,
      (if_pos hparity).trans (receivedWord_eq bs)⟩
    rw [opening, hidle]
    simp
  | _ => exact absurd rfl hne

end Attempts

section Transfer

variable {W : Type} {step : W → LineEvent → W → Prop} {engine : Engine} {request : Request}
  {data : Word} {ack : Byte}

theorem path_map {V : Type} {stepV : V → LineEvent → V → Prop} (f : W → V)
    (hf : ∀ w line w', step w line w' → stepV (f w) line (f w')) {w w' : W}
    {lines : List LineEvent} (h : Path step w lines w') : Path stepV (f w) lines (f w') := by
  induction lines generalizing w with
  | nil => exact congrArg f h
  | cons line lines ih =>
    obtain ⟨w₁, hstep, hrest⟩ := h
    exact ⟨f w₁, hf w line w₁ hstep, ih hrest⟩

theorem path_history {calls calls' lines : List LineEvent}
    (h : Path (fun calls line calls' => calls' = calls ++ [line]) calls lines calls') :
    calls' = calls ++ lines := by
  induction lines generalizing calls with
  | nil => rw [h, List.append_nil]
  | cons line lines ih =>
    obtain ⟨_, rfl, hrest⟩ := h
    rw [ih hrest, List.append_assoc]
    rfl

theorem Shared.append {calls lines : List LineEvent} (h : Shared engine request calls)
    (hlines : SharesLine engine.turnaroundCycles.toNat request lines) :
    Shared engine request (calls ++ lines) := by
  obtain ⟨attempts, rfl, hattempts⟩ := h
  refine ⟨attempts ++ [lines], by simp, fun lines' hmem => ?_⟩
  rcases List.mem_append.mp hmem with hmem | hmem
  · exact hattempts lines' hmem
  · obtain rfl := List.mem_singleton.mp hmem
    exact hlines

/-- In a world that keeps the calls, and in which the attempts come to their end, every transfer
is disciplined. -/
theorem protocolTransfer_disciplined (calls : W → List LineEvent)
    (hcalls : ∀ w line w', step w line w' → calls w' = calls w ++ [line])
    (hpos : 0 < engine.turnaroundCycles.toNat) (hle : engine.turnaroundCycles.toNat ≤ 4)
    {J : ℕ → W → Prop} (hJ : ∀ k w lines w', request.valid = true → J k w →
      Attempt { engine with hostOutput := true } request data lines
        (waiting { engine with hostOutput := true } data) → Path step w lines w' → J (k + 1) w')
    {last rounds : ℕ} (hlast : request.valid = true →
      LastAttempt { engine with hostOutput := true } J last) (hrounds : last < rounds) {w : W}
    (hw : calls w = taking engine) (hstart : J 0 w) :
    (protocolTransfer rounds request data ack { engine with hostOutput := true }).Settles
      (lineExec step) False (fun r w => Disciplined engine request data r (calls w)) w := by
  cases hvalid : request.valid with
  | false =>
    rw [protocolTransfer, if_pos (by simp [hvalid])]
    exact ⟨by simp, ⟨[], by simp [hw], by simp⟩, rfl, fun h => absurd rfl h⟩
  | true =>
    have hdriving : { engine with hostOutput := true }.Driving :=
      ⟨rfl, hpos, show engine.turnaroundCycles.toNat ≤ 64 by omega⟩
    have hlast : LastAttempt { engine with hostOutput := true }
        (fun k w => Shared engine request (calls w) ∧ J k w) last := by
      have h := hlast hvalid
      unfold LastAttempt at h ⊢
      split_ifs at h ⊢
      · exact fun w hw => h w hw.2
      · exact h
    refine protocolTransfer_settles hdriving hvalid _ hlast ?_ ?_ hrounds
      ⟨⟨[], by simp [hw], by simp⟩, hstart⟩
    · rintro k w lines r w' ⟨hshared, hk⟩ - hlines hpath
      have hall := path_history (path_map calls hcalls hpath)
      have hshared' := hshared.append hlines.shares
      rw [← hall] at hshared'
      split_ifs with hwait
      · rw [hwait] at hlines
        exact ⟨hshared', hJ k w lines w' hvalid hk hlines hpath⟩
      · refine ⟨hlines.error_ne, hshared', ?_, fun hne => ?_⟩
        · obtain ⟨_, _, hafter⟩ := hlines
          rw [hafter.engine_eq.1]
        · obtain ⟨hread, herror, hack, before, ackBits, bs, back, idle, rfl, h⟩ := hlines.word hne
          exact ⟨hread, herror, hack, calls w ++ before, ackBits, bs, back, idle, by simp [hall], h⟩
    · rintro w ⟨hshared, -⟩
      exact ⟨by simp [waiting], hshared, rfl, fun h => absurd rfl h⟩

/-- A program that comes to its end in a world does so in any world that the first one can
follow. -/
theorem settles_of_simulates {α V : Type} {p : SwdCode α} {Q : α → V → Prop}
    {stepV : V → LineEvent → V → Prop} (R : W → V → Prop)
    (hR : ∀ w v line w', R w v → step w line w' → ∃ v', stepV v line v' ∧ R w' v') {v : V} {w : W}
    (hwv : R w v) (h : p.Settles (lineExec stepV) False Q v) :
    p.Settles (lineExec step) False (fun _ _ => True) w := by
  induction p generalizing v w with
  | ret v => trivial
  | act c k ih =>
    rintro r w' ⟨line, hevent, hstep⟩
    obtain ⟨v', hstep', hwv'⟩ := hR w v line w' hwv hstep
    exact ih r hwv' (h r v' ⟨line, hevent, hstep'⟩)
  | spent => exact h

/-- The target, with the calls that a transfer has made. -/
def Target.recorded (target : Target) :
    TargetState × List LineEvent → LineEvent → TargetState × List LineEvent → Prop :=
  fun x line x' => target.step x.1 line x'.1 ∧ x'.2 = x.2 ++ [line]

/-- A transfer from any state of the engine is disciplined. It returns, whatever is seen on the
line, if the limit of the retries is not the greatest number; and for any target with the same
settings, unless the limit is that number and all answers are WAIT. -/
theorem transfer_disciplined_iff (hinit : engine.initialized = true)
    (hpos : 1 ≤ engine.turnaroundCycles.toNat) (hle : engine.turnaroundCycles.toNat ≤ 4) :
    (¬ (request.valid = true ∧ engine.waitRetries = BitVec.allOnes 32) → ∃ rounds,
      (swdTransfer rounds request data ack engine).Settles history False
        (Disciplined engine request data) []) ∧
    ∀ target : Target, target.Fits engine →
      ((∃ rounds, (swdTransfer rounds request data ack engine).Settles (lineExec target.recorded)
        False (fun r x => Disciplined engine request data r x.2) (idleTarget, [])) ↔
      ¬ (request.valid = true ∧ engine.waitRetries = BitVec.allOnes 32 ∧
        ∀ i, (target.answers i).ack = 2)) := by
  refine ⟨fun hlimit => ⟨engine.waitRetries.toNat + 2, ?_⟩,
    fun target hfits => ⟨?_, fun hbad => ?_⟩⟩
  · refine (swdTransfer_settles_iff hinit).mpr fun calls hpath => ?_
    refine protocolTransfer_disciplined id (fun _ _ _ h => h) hpos hle (J := fun _ _ => True)
      (fun _ _ _ _ _ _ _ _ => trivial) (fun hvalid => ?_) (Nat.lt_succ_self _)
      (path_history hpath) trivial
    rw [LastAttempt, if_neg fun hmax => hlimit ⟨hvalid, hmax⟩]
  · rintro ⟨rounds, h⟩ ⟨hvalid, hlimit, hall⟩
    refine swdTransfer_waits hinit hpos hle hvalid hlimit hfits (fun _ _ _ => hall _) rounds
      (settles_of_simulates (fun s x => x.1 = s) ?_ rfl h)
    rintro _ x line s' rfl hstep
    exact ⟨(s', x.2 ++ [line]), ⟨hstep, rfl⟩, rfl⟩
  · obtain ⟨n, hn⟩ : ∃ n, request.valid = true → engine.waitRetries = BitVec.allOnes 32 →
        (target.answers n).ack ≠ 2 := by
      by_contra hnone
      push Not at hnone
      exact hbad ⟨(hnone 0).1, (hnone 0).2.1, fun i => (hnone i).2.2⟩
    refine ⟨(if engine.waitRetries = BitVec.allOnes 32 then n + 1
      else engine.waitRetries.toNat + 1) + 1,
      (swdTransfer_settles_iff hinit).mpr fun x hpath => ?_⟩
    have htarget := path_map Prod.fst (fun _ _ _ h => h.1) hpath
    have hidle : x.1 = idleTarget := by
      rw [taking] at htarget
      split_ifs at htarget
      · exact htarget
      · obtain ⟨_, h, h'⟩ := htarget
        exact h'.trans h
    refine protocolTransfer_disciplined Prod.snd (fun _ _ _ h => h.2) hpos hle
      (J := fun k x => Retried target engine request data k x.1) ?_
      (fun hvalid => Retried.lastAttempt Prod.fst (hn hvalid)) (Nat.lt_succ_self _)
      (path_history (path_map Prod.snd (fun _ _ _ h => h.2) hpath)) (hidle ▸ retried_zero)
    intro k x lines x' hvalid hs hlines hpath
    obtain ⟨hr, hagain, -⟩ := hs.attempt hvalid hfits hlines
      (path_map Prod.fst (fun _ _ _ h => h.1) hpath)
    exact hagain ((outcome_waiting_iff _).mp hr.symm)

end Transfer

theorem idcode_transfer_disciplined : ∃ rounds,
    (swdTransfer rounds idcodeRequest 0 0 greatestEngine).Settles
      (lineExec (busyTarget greatestEngine).recorded) False
      (fun r x => Disciplined greatestEngine idcodeRequest 0 r x.2)
      (idleTarget, []) :=
  ((transfer_disciplined_iff rfl (by decide) (by decide)).2 _ ⟨rfl, rfl⟩).mpr
    fun h => absurd (h.2.2 1) (by decide)

theorem greatest_limit_never_returns : ¬ ∃ rounds,
    (swdTransfer rounds idcodeRequest 0 0 greatestEngine).Settles history False
      (Disciplined greatestEngine idcodeRequest 0) [] := by
  rintro ⟨rounds, h⟩
  have hfits : (waitingTarget greatestEngine).Fits _ := ⟨rfl, rfl⟩
  refine swdTransfer_waits rfl (by decide) (by decide) (by decide) rfl hfits (fun _ _ _ => rfl)
    rounds (settles_of_simulates (fun _ _ => True) ?_ trivial h)
  exact fun _ calls line _ _ _ => ⟨calls ++ [line], rfl, trivial⟩

end Swd
end AirDap
