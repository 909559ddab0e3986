import AirDap.Ota.Joint

/-! Which image an update selects for the next boot: the one that was declared, whole and in
order, and none that a write has failed for unless the abort after it failed too. -/
namespace AirDap
open Concurrency

variable {T : Type} [DecidableEq T] {w : OtaDevice T} {σ : OtaConfig T}

/-- The sizes of the session are in order in every state, the chunks follow each other and add
up to the written size, and the boot partition is only selected for a complete image. -/
theorem complete_image_activated (hw : OtaFresh w)
    (hsteps : (otaMachine T).Steps (.start w) σ) :
    Sized σ.world.memory.session ∧ Contiguous (otaLog σ.history).chunks ∧
      (σ.world.memory.sessionMutex = none → σ.world.memory.session.state = .receiving →
        (otaLog σ.history).total = σ.world.memory.session.writtenSize.toNat) ∧
      ∀ later earlier t partition r w',
        σ.history = later ++ .acted t (.io (.setBootPartition partition)) r w' :: earlier →
        ∃ request, lastRequest t earlier = some request ∧ Complete request (otaLog earlier) := by
  obtain ⟨γ, hinv⟩ := ota_steps hw hsteps
  refine ⟨hinv.sized, hinv.contiguous, fun hfree hstate => ?_, ?_⟩
  · exact ((hinv.rest hfree).current hstate).total
  · intro later earlier t partition r w' hhistory
    have hjustified := hinv.justified
    change AllJustified σ.history at hjustified
    rw [hhistory] at hjustified
    obtain ⟨hrequest, hsound, -⟩ := hjustified.of_append
    obtain ⟨request, hrequest⟩ := hrequest ⟨_, rfl⟩
    exact ⟨request, hrequest, (hsound request hrequest).complete partition rfl⟩

/-- An image of three bytes. -/
def smallImage : List Byte := [0xE9, 1, 2]

/-- A client that uploads and commits the small image. -/
def smallUpdate (client : Option OtaClient) : List OtaRequest :=
  [.begin client 3, .write client 0 (some smallImage) (some 0), .commit client]

/-- The USB client uploads the small image and commits it. -/
theorem usbUpdate_complete : ∃ σ : OtaConfig Unit, ∃ later earlier partition r w',
    (otaMachine Unit).Steps (.start otaDevice) σ ∧
      σ.history = later ++ .acted () (.io (.setBootPartition partition)) r w' :: earlier ∧
      ∃ request, lastRequest () earlier = some request ∧ Complete request (otaLog earlier) := by
  have hsteps := otaRun_steps (fun _ => otaWilling) 12 ((smallUpdate none).map ((), ·))
  have hcomplete := (complete_image_activated otaDevice_fresh hsteps).2.2.2
  exact ⟨_, [_, _, _, _, _], _, _, _, _, hsteps, rfl, hcomplete [_, _, _, _, _] _ _ _ _ _ rfl⟩

section FailedWrite

theorem otaLog_uncleaned {h : List (OtaEvent T)}
    (hh : ∀ later earlier t handle w,
      h = later ++ .acted t (.io (.otaAbort handle)) false w :: earlier →
      (otaLog earlier).failing = false) : (otaLog h).uncleaned = false := by
  induction h with
  | nil => rfl
  | cons e h ih =>
    have ih' := ih fun later earlier t handle w hh' =>
      hh (e :: later) earlier t handle w (by rw [hh']; rfl)
    cases e with
    | called t c w => exact ih'
    | returned t c v => exact ih'
    | acted t a r w =>
      cases a with
      | io i =>
        unfold otaLog
        cases lastRequest t h with
        | none => exact ih'
        | some request =>
          cases i with
          | otaAbort handle =>
            cases r with
            | true => simp [OtaLog.act, ih']
            | false => simp [OtaLog.act, ih', hh [] h t handle w rfl]
          | otaBegin partition =>
            obtain ⟨begun, handle⟩ := r
            cases begun with
            | true => rfl
            | false => exact ih'
          | otaWrite handle data => cases r <;> exact ih'
          | otaEnd handle => cases r <;> exact ih'
          | authorize client => cases r <;> exact ih'
          | uartResume => cases r <;> exact ih'
          | _ => exact ih'
      | _ => exact ih'

/-- In every run in which no abort right after a failed write fails, an update with a failed
write never selects the boot partition, and none of its later writes and commits returns OK. -/
theorem failed_write_fatal (hw : OtaFresh w) (hsteps : (otaMachine T).Steps (.start w) σ)
    (habort : ∀ later earlier t handle w',
      σ.history = later ++ .acted t (.io (.otaAbort handle)) false w' :: earlier →
      (otaLog earlier).failing = false) :
    (∀ later earlier t partition r w',
      σ.history = later ++ .acted t (.io (.setBootPartition partition)) r w' :: earlier →
      (otaLog earlier).writeFailed = false) ∧
    ∀ later earlier t c v, σ.history = later ++ .returned t c v :: earlier →
      c.Succeeds v → (otaLog earlier).writeFailed = false := by
  obtain ⟨γ, hinv⟩ := ota_steps hw hsteps
  have hjustified := hinv.justified
  change AllJustified σ.history at hjustified
  have hspared {later earlier : List (OtaEvent T)} {e : OtaEvent T}
      (hhistory : σ.history = later ++ e :: earlier) (htolerated : (otaLog earlier).Tolerated) :
      (otaLog earlier).writeFailed = false := by
    have hclean : (otaLog earlier).uncleaned = false := by
      refine otaLog_uncleaned fun later' earlier' t handle w' hearlier => ?_
      refine habort (later ++ e :: later') earlier' t handle w' ?_
      rw [hhistory, hearlier]
      simp
    cases hfailed : (otaLog earlier).writeFailed with
    | false => rfl
    | true => cases hclean.symm.trans (htolerated hfailed)
  constructor
  · intro later earlier t partition r w' hhistory
    have hlater := hjustified
    rw [hhistory] at hlater
    obtain ⟨hrequest, hsound, -⟩ := hlater.of_append
    obtain ⟨request, hrequest⟩ := hrequest ⟨_, rfl⟩
    exact hspared hhistory ((hsound request hrequest).tolerated partition rfl)
  · intro later earlier t c v hhistory hv
    have hlater := hjustified
    rw [hhistory] at hlater
    exact hspared hhistory (hlater.of_append.1 hv)

/-- The USB client uploads the small image and commits it, and no write has failed. -/
theorem usbUpdate_unspoiled : ∃ σ : OtaConfig Unit, ∃ later earlier partition r w',
    (otaMachine Unit).Steps (.start otaDevice) σ ∧
      σ.history = later ++ .acted () (.io (.setBootPartition partition)) r w' :: earlier ∧
      (otaLog earlier).writeFailed = false := by
  have hsteps := otaRun_steps (fun _ => otaWilling) 12 ((smallUpdate none).map ((), ·))
  have hfatal := (failed_write_fatal otaDevice_fresh hsteps ?_).1
  · exact ⟨_, [_, _, _, _, _], _, _, _, _, hsteps, rfl, hfatal [_, _, _, _, _] _ _ _ _ _ rfl⟩
  · intro later earlier t handle w' hhistory
    have hmem : .acted t (.io (.otaAbort handle)) false w' ∈
        (otaRun (fun _ => otaWilling) 12 ((smallUpdate none).map ((), ·))).history := by
      rw [hhistory]
      exact List.mem_append_right _ (List.mem_cons_self ..)
    iterate 33
      rcases List.mem_cons.mp hmem with h | hmem
      · cases h
    cases hmem

/-- A driver whose writes and aborts fail. -/
def otaFailing : (i : OtaIo) → i.Answer
  | .otaWrite _ _ | .otaAbort _ => false
  | i => otaWilling i

/-- The first write and the abort after it fail; the same client writes the chunk again and
commits. -/
def retriedRun : OtaConfig Bool :=
  otaRun (fun t => if t then otaWilling else otaFailing) 12
    [(false, .begin none 3), (false, .write none 0 (some smallImage) (some 0)),
      (true, .write none 0 (some smallImage) (some 0)), (true, .commit none)]

/-- An update with a failed write selects the boot partition, and its later write and commit
return OK. -/
theorem failed_write_survived :
    (otaMachine Bool).Steps (.start otaDevice) retriedRun ∧
      (∃ later earlier t partition r w', retriedRun.history =
        later ++ .acted t (.io (.setBootPartition partition)) r w' :: earlier ∧
          (otaLog earlier).writeFailed = true) ∧
      ∃ later earlier t c v, retriedRun.history = later ++ .returned t c v :: earlier ∧
        c.Succeeds v ∧ (otaLog earlier).writeFailed = true := by
  refine ⟨otaRun_steps _ _ _, ⟨[_, _, _, _, _], _, _, _, _, _, rfl, rfl⟩, ?_⟩
  exact ⟨[], _, _, _, _, rfl, rfl, rfl⟩

end FailedWrite
end AirDap
