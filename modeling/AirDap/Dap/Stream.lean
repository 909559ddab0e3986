import AirDap.Dap.Framing

/-! The bytes that come in over USB, cut into requests. A request may come in pieces: what is
there of it stays in the buffer until the rest comes. -/
namespace AirDap

/-- `airdap_dap_stream_t`: the bytes that are in use of its buffer, and the time. -/
structure DapStream where
  data : List Byte
  lastActivity : ℤ
  deriving DecidableEq

/-- `airdap_dap_stream_init`. -/
def DapStream.init : DapStream := ⟨[], 0⟩

inductive StreamResult where
  | ok | malformed | overflow
  deriving DecidableEq, Repr

/-- The loop of `airdap_dap_stream_feed`: the bytes that are left, or none if a request is
malformed, and the requests that were found. Every pass takes at least one byte, so `fuel` may be
the number of the bytes. -/
def splitRequests : ℕ → List Byte → Option (List Byte) × List (List Byte)
  | 0, data => (some data, [])
  | fuel + 1, data =>
    let size := requestSize data
    if data.length = 0 ∨ size = 0 then (some data, [])
    else if size = sizeMax ∨ size > dapPacketSize then (none, [])
    else
      let rest := splitRequests fuel (data.drop size)
      (rest.1, data.take size :: rest.2)

/-- `airdap_dap_stream_feed`: the result, the stream it leaves and the requests it passes on. -/
def DapStream.feed (stream : DapStream) (data : List Byte) (now : ℤ) :
    StreamResult × DapStream × List (List Byte) :=
  if data.length > dapBufferSize - stream.data.length then (.overflow, .init, [])
  else
    let whole := stream.data ++ data
    match splitRequests whole.length whole with
    | (none, requests) => (.malformed, .init, requests)
    | (some rest, requests) =>
      (.ok, ⟨rest, if rest.length > 0 then now else 0⟩, requests)

def dapStreamTimeoutUs : ℤ := 250000

/-- `airdap_dap_stream_expire`: whether the stream has expired, and the stream it leaves. -/
def DapStream.expire (stream : DapStream) (now : ℤ) : Bool × DapStream :=
  if stream.data.length = 0 ∨ now < stream.lastActivity ∨
      now - stream.lastActivity < dapStreamTimeoutUs then (false, stream)
  else (true, .init)

/-- A call of the stream. -/
inductive StreamCall where
  | feed (data : List Byte) (now : ℤ)
  | expire (now : ℤ)

def StreamCall.bytes : StreamCall → List Byte
  | .feed data _ => data
  | .expire _ => []

/-- The calls lead from one stream to the other and pass the requests on; every feed returns
`AIRDAP_DAP_STREAM_OK` and nothing expires. -/
inductive DapStream.Fed : DapStream → List StreamCall → DapStream → List (List Byte) → Prop
  | nil {stream : DapStream} : Fed stream [] stream []
  | feed {stream stream₁ stream₂ : DapStream} {data : List Byte} {now : ℤ}
      {calls : List StreamCall} {requests more : List (List Byte)}
      (hfeed : stream.feed data now = (.ok, stream₁, requests))
      (hrest : Fed stream₁ calls stream₂ more) :
      Fed stream (.feed data now :: calls) stream₂ (requests ++ more)
  | expire {stream stream₁ stream₂ : DapStream} {now : ℤ} {calls : List StreamCall}
      {more : List (List Byte)} (hexpire : stream.expire now = (false, stream₁))
      (hrest : Fed stream₁ calls stream₂ more) :
      Fed stream (.expire now :: calls) stream₂ more

/-- The bytes are cut into whole requests and the beginning of one more. -/
structure Cuts (bytes : List Byte) (requests : List (List Byte)) (rest : List Byte) : Prop where
  bytes_eq : requests.flatten ++ rest = bytes
  whole : ∀ request ∈ requests, 0 < request.length ∧ requestSize request = request.length
  waiting : rest = [] ∨ requestSize rest = 0

section Cuts

variable {bytes data rest rest' : List Byte} {requests requests' more : List (List Byte)}

theorem Cuts.append (h : Cuts bytes requests rest) (hmore : Cuts (rest ++ data) more rest') :
    Cuts (bytes ++ data) (requests ++ more) rest' where
  bytes_eq := by
    rw [List.flatten_append, List.append_assoc, hmore.bytes_eq, ← List.append_assoc, h.bytes_eq]
  whole := by
    intro request hrequest
    rcases List.mem_append.mp hrequest with hin | hin
    · exact h.whole request hin
    · exact hmore.whole request hin
  waiting := hmore.waiting

theorem requestSize_whole_append {request : List Byte} (hpos : 0 < request.length)
    (hsize : requestSize request = request.length) (rest : List Byte) :
    requestSize (request ++ rest) = request.length := by
  rw [← hsize]
  exact requestSize_of_isPrefix (List.prefix_append request rest) (by omega)

theorem Cuts.unique (h : Cuts bytes requests rest) (h' : Cuts bytes requests' rest') :
    requests = requests' ∧ rest = rest' := by
  have hstuck {request rest rest' : List Byte} (hpos : 0 < request.length)
      (hsize : requestSize request = request.length) (hwait : rest = [] ∨ requestSize rest = 0)
      (heq : rest = request ++ rest') : False := by
    have hwhole := requestSize_whole_append hpos hsize rest'
    rw [← heq] at hwhole
    rcases hwait with rfl | hzero
    · exact absurd hpos (by simp [(List.nil_eq_append_iff.mp heq).1])
    · omega
  induction requests generalizing bytes requests' with
  | nil =>
    have hrest : rest = bytes := h.bytes_eq
    cases requests' with
    | nil => exact ⟨rfl, hrest.trans h'.bytes_eq.symm⟩
    | cons request' requests' =>
      obtain ⟨hpos, hsize⟩ := h'.whole request' List.mem_cons_self
      have heq := h'.bytes_eq
      rw [List.flatten_cons, List.append_assoc, ← hrest] at heq
      exact (hstuck hpos hsize h.waiting heq.symm).elim
  | cons request requests ih =>
    obtain ⟨hpos, hsize⟩ := h.whole request List.mem_cons_self
    have heq := h.bytes_eq
    rw [List.flatten_cons, List.append_assoc] at heq
    cases requests' with
    | nil =>
      have hrest : rest' = bytes := h'.bytes_eq
      exact (hstuck hpos hsize h'.waiting (hrest.trans heq.symm)).elim
    | cons request' requests' =>
      obtain ⟨hpos', hsize'⟩ := h'.whole request' List.mem_cons_self
      have heq' := h'.bytes_eq
      rw [List.flatten_cons, List.append_assoc] at heq'
      -- both first requests are what the framer finds at the head of the stream
      have hlength : request.length = request'.length := by
        rw [← requestSize_whole_append hpos hsize (requests.flatten ++ rest),
          ← requestSize_whole_append hpos' hsize' (requests'.flatten ++ rest'), heq, heq']
      obtain ⟨rfl, htail⟩ := List.append_inj (heq.trans heq'.symm) hlength
      have hrest : Cuts (requests.flatten ++ rest) requests rest :=
        ⟨rfl, fun r hr => h.whole r (List.mem_cons_of_mem _ hr), h.waiting⟩
      have hrest' : Cuts (requests.flatten ++ rest) requests' rest' :=
        ⟨htail.symm, fun r hr => h'.whole r (List.mem_cons_of_mem _ hr), h'.waiting⟩
      obtain ⟨rfl, rfl⟩ := ih hrest hrest'
      exact ⟨rfl, rfl⟩

theorem splitRequests_cuts {fuel : ℕ} (hfuel : data.length ≤ fuel)
    (h : splitRequests fuel data = (some rest, requests)) : Cuts data requests rest := by
  induction fuel generalizing data rest requests with
  | zero =>
    cases h
    exact ⟨rfl, fun _ h => (by cases h), .inl (List.length_eq_zero_iff.mp (by omega))⟩
  | succ fuel ih =>
    rw [splitRequests] at h
    dsimp only at h
    split at h
    · rename_i hwait
      cases h
      exact ⟨rfl, fun _ h => (by cases h), hwait.imp_left List.length_eq_zero_iff.mp⟩
    · rename_i hsome
      split at h
      · cases h
      · rename_i hfits
        rw [not_or] at hsome hfits
        have hframed := framed_of_requestSize hsome.2 hfits.1
        have hpos := hframed.pos
        have hlength : (data.take (requestSize data)).length = requestSize data := by
          rw [List.length_take, min_eq_left hframed.length_le]
        have hhead : Framed (data.take (requestSize data)) (requestSize data) :=
          hframed.of_prefix (List.take_prefix _ _) hlength.ge
        obtain ⟨hrest, hrequests⟩ := Prod.mk.inj h
        subst hrequests
        have htail : Cuts (data.drop (requestSize data))
            (splitRequests fuel (data.drop (requestSize data))).2 rest := by
          refine ih ?_ (Prod.ext hrest rfl)
          rw [List.length_drop]
          omega
        refine ⟨?_, ?_, htail.waiting⟩
        · rw [List.flatten_cons, List.append_assoc, htail.bytes_eq, List.take_append_drop]
        · intro request hin
          rcases List.mem_cons.mp hin with rfl | hin
          · exact ⟨hpos.trans_eq hlength.symm, hhead.requestSize_eq.trans hlength.symm⟩
          · exact htail.whole request hin

theorem feed_cuts {stream stream' : DapStream} {now : ℤ}
    (h : stream.feed data now = (.ok, stream', requests)) :
    Cuts (stream.data ++ data) requests stream'.data := by
  unfold DapStream.feed at h
  split at h
  · cases h
  · dsimp only at h
    split at h
    · cases h
    · rename_i rest' requests' hsplit
      cases h
      exact splitRequests_cuts le_rfl hsplit

theorem expire_eq {stream stream' : DapStream} {now : ℤ}
    (h : stream.expire now = (false, stream')) : stream' = stream := by
  unfold DapStream.expire at h
  split at h
  · cases h
    rfl
  · cases h

theorem DapStream.Fed.cuts {stream stream' : DapStream} {calls : List StreamCall}
    (hfed : stream.Fed calls stream' more) (h : Cuts bytes requests stream.data) :
    Cuts (bytes ++ (calls.map StreamCall.bytes).flatten) (requests ++ more) stream'.data := by
  induction hfed generalizing bytes requests with
  | nil => simpa using h
  | feed hfeed hrest ih =>
    have hcuts := ih (h.append (feed_cuts hfeed))
    simpa [StreamCall.bytes] using hcuts
  | expire hexpire hrest ih =>
    rw [expire_eq hexpire] at ih
    simpa [StreamCall.bytes] using ih h

end Cuts

/-- The requests that the stream passes on, and the bytes it keeps, do not depend on how the
bytes were cut into feeds, and they are all of the bytes. -/
theorem reassembly_independent_of_chunks {calls calls' : List StreamCall}
    {stream stream' : DapStream} {requests requests' : List (List Byte)}
    (hbytes : (calls.map StreamCall.bytes).flatten = (calls'.map StreamCall.bytes).flatten)
    (hfed : DapStream.init.Fed calls stream requests)
    (hfed' : DapStream.init.Fed calls' stream' requests') :
    requests = requests' ∧ stream.data = stream'.data ∧
      requests.flatten ++ stream.data = (calls.map StreamCall.bytes).flatten := by
  have hempty : Cuts [] [] DapStream.init.data := ⟨rfl, fun _ h => (by cases h), .inl rfl⟩
  have hcuts := hfed.cuts hempty
  have hcuts' := hfed'.cuts hempty
  rw [← hbytes] at hcuts'
  obtain ⟨hrequests, hrest⟩ := hcuts.unique hcuts'
  exact ⟨hrequests, hrest, hcuts.bytes_eq⟩

theorem reassembly_of_connect :
    DapStream.init.Fed [.feed [0x02] 5, .expire 9, .feed [0x01, 0x05] 10] ⟨[0x05], 10⟩
      [[0x02, 0x01]] ∧
    DapStream.init.Fed [.feed [0x02, 0x01, 0x05] 7] ⟨[0x05], 7⟩ [[0x02, 0x01]] ∧
    [[0x02, 0x01]].flatten ++ [0x05] = ([0x02, 0x01, 0x05] : List Byte) := by
  have hhead : DapStream.init.feed [0x02] 5 = (.ok, ⟨[0x02], 5⟩, []) := by decide
  have hkept : DapStream.expire ⟨[0x02], 5⟩ 9 = (false, ⟨[0x02], 5⟩) := by decide
  have htail : DapStream.feed ⟨[0x02], 5⟩ [0x01, 0x05] 10 =
      (.ok, ⟨[0x05], 10⟩, [[0x02, 0x01]]) := by
    decide
  have honce : DapStream.init.feed [0x02, 0x01, 0x05] 7 = (.ok, ⟨[0x05], 7⟩, [[0x02, 0x01]]) := by
    decide
  have hpieces := DapStream.Fed.feed hhead (.expire hkept (.feed htail .nil))
  have hwhole := DapStream.Fed.feed honce .nil
  have hbytes : ([.feed [0x02] 5, .expire 9, .feed [0x01, 0x05] 10].map StreamCall.bytes).flatten =
      ([.feed [0x02, 0x01, 0x05] 7].map StreamCall.bytes).flatten := rfl
  exact ⟨hpieces, hwhole, (reassembly_independent_of_chunks hbytes hpieces hwhole).2.2⟩

end AirDap
