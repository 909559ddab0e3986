import AirDap.Ota.Machine

/-! What a history of the OTA machine tells: the update that the driver calls have built so
far, and what the current request of a thread found when it took the mutex. -/
namespace AirDap
open Concurrency

variable {T : Type}

/-- The update that was begun last, as the driver calls show it. -/
structure OtaLog where
  /-- The client and the size of the request that began it, and the handle it was given. -/
  client : Option OtaClient
  declared : Word
  handle : Word
  /-- The chunks that were written, newest first, with the offsets of their requests. -/
  chunks : List (Word × List Byte)
  /-- A write has failed, and an abort right after a failed write has failed. -/
  writeFailed : Bool
  uncleaned : Bool
  /-- The last driver call was a write that failed. -/
  failing : Bool
  /-- The handle that the last driver call has ended, and the client authorized since. -/
  ended : Option Word
  reauthorized : Option OtaClient
  /-- No resume of the UART has failed, in this update or before. -/
  resumed : Bool

namespace OtaLog

def start : OtaLog := ⟨none, 0, 0, [], false, false, false, none, none, true⟩

def total (log : OtaLog) : ℕ := (log.chunks.map (·.2.length)).sum

/-- What every driver call ends. -/
def call (log : OtaLog) : OtaLog :=
  { log with failing := false, ended := none, reauthorized := none }

end OtaLog

namespace OtaRequest

def client : OtaRequest → Option OtaClient
  | .debugAllowed => none
  | .begin client _ | .write client _ _ _ | .commit client | .abort client | .reboot client
  | .prepareReboot client | .disconnect client => client

def offset : OtaRequest → Word
  | .write _ offset _ _ => offset
  | _ => 0

def imageSize : OtaRequest → Word
  | .begin _ imageSize => imageSize
  | _ => 0

end OtaRequest

def OtaLog.act (log : OtaLog) (request : OtaRequest) : (i : OtaIo) → i.Answer → OtaLog
  | .otaBegin _, (true, handle) =>
    { start with
      client := request.client
      declared := request.imageSize
      handle
      resumed := log.resumed }
  | .otaWrite _ data, true => { log.call with chunks := (request.offset, data) :: log.chunks }
  | .otaWrite _ _, false => { log.call with writeFailed := true, failing := true }
  | .otaEnd handle, true => { log.call with ended := some handle }
  | .otaAbort _, r => { log.call with uncleaned := log.uncleaned || (log.failing && !r) }
  | .otaBegin _, (false, _) | .otaEnd _, false | .setBootPartition _, _ => log.call
  | .authorize client, true => { log with reauthorized := some client }
  | .uartResume, false => { log with resumed := false }
  | _, _ => log

/-- What the current request of a thread found: the session when it took the mutex, and the
first answer of the authorization. -/
structure OtaEntry where
  found : Option OtaSession
  authorized : Option Bool

namespace OtaEntry

def start : OtaEntry := ⟨none, none⟩

def act (entry : OtaEntry) (session : OtaSession) : (i : OtaIo) → i.Answer → OtaEntry
  | .lockSession, true => { entry with found := some session }
  | .authorize _, r => { entry with authorized := entry.authorized <|> some r }
  | _, _ => entry

end OtaEntry

section History

variable [DecidableEq T]

/-- The request that thread `t` is in or made last. -/
def lastRequest (t : T) (h : List (OtaEvent T)) : Option OtaRequest :=
  (lastCall t h).bind fun c => c.1.request

def otaLog : List (OtaEvent T) → OtaLog
  | [] => .start
  | .acted t (.io i) r _ :: h =>
    match lastRequest t h with
    | some request => (otaLog h).act request i r
    | none => otaLog h
  | _ :: h => otaLog h

def otaEntry (t : T) : List (OtaEvent T) → OtaEntry
  | [] => .start
  | .called u _ _ :: h => if u = t then .start else otaEntry t h
  | .acted u (.io i) r w :: h =>
    if u = t then (otaEntry t h).act w.memory.session i r else otaEntry t h
  | _ :: h => otaEntry t h

end History

/-- Each chunk starts where the ones before it end. -/
def Contiguous : List (Word × List Byte) → Prop
  | [] => True
  | chunk :: chunks => chunk.1.toNat = (chunks.map (·.2.length)).sum ∧ Contiguous chunks

/-- What must have happened before the boot partition is selected: the whole image has been
written, its handle has just been ended, and the client that began it commits it and has been
authorized since. -/
structure Complete (request : OtaRequest) (log : OtaLog) : Prop where
  total : log.total = log.declared.toNat
  ended : log.ended = some log.handle
  commit : ∃ client, request = .commit client ∧
    clientIdentity client = clientIdentity log.client ∧
    ∀ c, client = some c → log.reauthorized = some c

/-- A failed write of the update was not followed by a successful abort. -/
def OtaLog.Tolerated (log : OtaLog) : Prop := log.writeFailed = true → log.uncleaned = true

/-- The operations that change nothing but the mutex of the session. -/
def Act.Harmless : Act OtaIo → Prop
  | .loadOwnership | .loadMode | .io .lockSession | .io .unlockSession | .io .loadSession
  | .io (.authorize _) => True
  | _ => False

instance : DecidablePred Act.Harmless
  | .loadOwnership | .loadMode | .io .lockSession | .io .unlockSession | .io .loadSession
  | .io (.authorize _) => inferInstanceAs (Decidable True)
  | .storeOwnership _ | .casOwnership _ _ | .casOwnershipWeak _ _ | .lineReset | .releasePins
  | .casModeWeak _ _ | .addPreemption | .subPreemption | .loadPreemptions | .saveRoute _
  | .io (.storeSession _) | .io .uartSuspend | .io .uartResume | .io .getNextUpdatePartition
  | .io (.otaBegin _) | .io (.otaWrite _ _) | .io (.otaEnd _) | .io (.otaAbort _)
  | .io (.setBootPartition _) | .io .restart => inferInstanceAs (Decidable False)

/-- The client is the one at the USB port, or has been authorized by the first check. -/
def OtaEntry.Admits (entry : OtaEntry) (client : Option OtaClient) : Prop :=
  client = none ∨ entry.authorized = some true

/-- The requests that may do something with the session they found. -/
def OtaRequest.Entitled (entry : OtaEntry) : OtaRequest → Prop
  | .begin client _ | .write client _ _ _ | .commit client =>
    entry.Admits client ∧ ∃ session, entry.found = some session ∧ ¬ Foreign client session
  | .abort client => entry.Admits client ∧ ∃ session, entry.found = some session ∧
      (Foreign client session → session.disconnected = true)
  | .reboot client => entry.Admits client
  | .disconnect client => ∃ session, entry.found = some session ∧ session.state = .receiving ∧
      OwnsSession session client
  | .debugAllowed | .prepareReboot _ => False

/-- A write or a commit that returns OK. -/
def OtaCall.Succeeds : (c : OtaCall) → c.Value → Prop
  | .ota _ (.write _ _ _ _), v => v.1 = .ok
  | .ota _ (.commit _), v => v = .ok
  | _, _ => False

/-- What is true whenever a request performs an operation. -/
structure Justified (request : OtaRequest) (log : OtaLog) (entry : OtaEntry) (w : OtaDevice T)
    (a : Act OtaIo) : Prop where
  joint : a = .io .unlockSession → log.resumed = true → Joint w
  complete : ∀ partition, a = .io (.setBootPartition partition) → Complete request log
  tolerated : ∀ partition, a = .io (.setBootPartition partition) → log.Tolerated
  entitled : ¬ a.Harmless → request.Entitled entry

section History

variable [DecidableEq T]

/-- Every event was justified when it happened, and only requests to the manager use its
operations. -/
def AllJustified : List (OtaEvent T) → Prop
  | [] => True
  | .called _ _ _ :: h => AllJustified h
  | .acted t a _ w :: h => ((∃ i, a = .io i) → ∃ request, lastRequest t h = some request) ∧
      (∀ request, lastRequest t h = some request →
        Justified request (otaLog h) (otaEntry t h) w a) ∧
      AllJustified h
  | .returned _ c v :: h => (c.Succeeds v → (otaLog h).Tolerated) ∧ AllJustified h

theorem lastRequest_of_ne {t : T} {e : OtaEvent T} {h : List (OtaEvent T)} (he : e.thread ≠ t) :
    lastRequest t (e :: h) = lastRequest t h := by
  rw [lastRequest, lastRequest, lastCall_of_ne he]

theorem otaEntry_of_ne {t : T} {e : OtaEvent T} {h : List (OtaEvent T)} (he : e.thread ≠ t) :
    otaEntry t (e :: h) = otaEntry t h := by
  cases e with
  | called u c w => exact if_neg he
  | acted u a r w =>
    cases a with
    | io i => exact if_neg he
    | _ => rfl
  | returned u c v => rfl

section Acted

variable {t : T} {a : Act OtaIo} {r : Resp OtaIo.Answer a} {w : OtaDevice T}
  {h : List (OtaEvent T)}

theorem otaLog_of_ne_io (ha : ∀ i, a ≠ .io i) : otaLog (.acted t a r w :: h) = otaLog h := by
  cases a with
  | io i => exact absurd rfl (ha i)
  | _ => rfl

theorem otaEntry_of_ne_io {u : T} (ha : ∀ i, a ≠ .io i) :
    otaEntry u (.acted t a r w :: h) = otaEntry u h := by
  cases a with
  | io i => exact absurd rfl (ha i)
  | _ => rfl

theorem otaLog_io {request : OtaRequest} {i : OtaIo} {r : i.Answer}
    (hrequest : lastRequest t h = some request) :
    otaLog (.acted t (.io i) r w :: h) = (otaLog h).act request i r := by
  simp only [otaLog, hrequest]

theorem otaEntry_io {i : OtaIo} {r : i.Answer} :
    otaEntry t (.acted t (.io i) r w :: h) = (otaEntry t h).act w.memory.session i r :=
  if_pos rfl

end Acted

theorem AllJustified.of_append {h₁ h₂ : List (OtaEvent T)} (h : AllJustified (h₁ ++ h₂)) :
    AllJustified h₂ := by
  induction h₁ with
  | nil => exact h
  | cons e h₁ ih =>
    cases e with
    | called t c w => exact ih h
    | acted t a r w => exact ih h.2.2
    | returned t c v => exact ih h.2

end History
end AirDap
