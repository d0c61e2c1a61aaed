import StpPlatform.MsgDispatcher

/-! # Two readers of an envelope (`codec/proto_msg_dispatcher.cc`)

    `Parse` and `OnceDispatch` decode an envelope with the same four steps: the
    size, the envelope, the type it names, the payload.  `OnceDispatch` used to
    call `Parse`; what was its body is a comment now, and the steps stand twice.

    `addressed` is how far the first three steps get.  Both readers are
    functions of it (`parse_eq`, `lookup_eq`), and they differ in what they make
    of a payload that does not parse: `OnceDispatch` drops the message and
    `Parse` logs a failure and returns it all the same. -/

namespace ParseDispatch

open MsgDispatcher ProtoWire Rpc RpcWire

/-! ## The two readers -/

/-- A `google::protobuf::Message*` that is not `NULL`. -/
structure AnyMsg (pb : Protobuf) where
  descriptor : Descriptor
  message : pb.Msg descriptor

section

variable {pb : Protobuf} (parseRequest : List UInt8 → Option Request)
  (leftover : ∀ d, List UInt8 → pb.Msg d)

/-- `bool Message::ParseFromArray(data, size)` on a new message: the result, and
    the message.  After a failure it holds what `leftover` says. -/
def parseFromArray (d : Descriptor) (data : List UInt8) : Bool × pb.Msg d :=
  match pb.parse d data with
  | some message => (true, message)
  | none => (false, leftover d data)

/-- `Message* MsgDispatcher::Parse(Connection*, const void*, unsigned int)`. -/
def parse (data : List UInt8) : Option (AnyMsg pb) :=
  if data.length < 4 then none
  else
    match parseRequest data with
    | none => none
    | some req =>
        match pb.createMessage req.method with
        | none => none
        -- the result of `ParseFromArray` decides only whether to log
        | some d => some ⟨d, (parseFromArray leftover d req.serializedRequest).2⟩

/-- What a call of `OnceDispatch` does: its result, the message for whose type
    it looks in `callback_map_`, and the callbacks it invokes. -/
structure Dispatched (pb : Protobuf) where
  ret : Bool
  lookup : Option (AnyMsg pb)
  invoked : List (Invocation pb)

/-- `bool MsgDispatcher::OnceDispatch(Connection*, const void*, unsigned int)`. -/
def dispatch (disp : Dispatcher) (data : List UInt8) : Dispatched pb :=
  if data.length < 4 then ⟨false, none, []⟩
  else
    match parseRequest data with
    | none => ⟨false, none, []⟩
    | some req =>
        match pb.createMessage req.method with
        | none => ⟨true, none, []⟩
        | some d =>
            match parseFromArray leftover d req.serializedRequest with
            | (false, _) => ⟨true, none, []⟩
            | (true, message) =>
                match disp.callbackMap d with
                | none => ⟨true, some ⟨d, message⟩, []⟩
                | some callback =>
                    ⟨true, some ⟨d, message⟩, [⟨callback, d, message⟩]⟩

/-- The dispatcher as it was, with the lookup written out. -/
theorem onceDispatch_eq (disp : Dispatcher) (data : List UInt8) :
    disp.onceDispatch pb data
      = ((dispatch Request.parse leftover disp data).ret,
        (dispatch Request.parse leftover disp data).invoked) := by
  rw [Dispatcher.onceDispatch, dispatch]
  by_cases hsize : data.length < 4
  · rw [if_pos hsize, if_pos hsize]
  · rw [if_neg hsize, if_neg hsize]
    cases Request.parse data with
    | none => rfl
    | some req =>
        cases htype : pb.createMessage req.method with
        | none => simp only [htype]
        | some d =>
            cases hpayload : pb.parse d req.serializedRequest with
            | none => simp only [htype, hpayload, parseFromArray]
            | some message =>
                cases hreg : disp.callbackMap d <;>
                  simp only [htype, hpayload, parseFromArray, hreg]

/-! ## How far an envelope gets -/

/-- The type that an envelope names, and its payload. -/
structure Addressed where
  descriptor : Descriptor
  payload : List UInt8

/-- What the size, the envelope and the name of the type let through. -/
def addressed (pb : Protobuf) (parseRequest : List UInt8 → Option Request)
    (data : List UInt8) : Option Addressed :=
  if data.length < 4 then none
  else
    (parseRequest data).bind fun req =>
      (pb.createMessage req.method).map fun d => ⟨d, req.serializedRequest⟩

theorem addressed_eq_some_iff {data : List UInt8} {a : Addressed} :
    addressed pb parseRequest data = some a
      ↔ 4 ≤ data.length ∧ ∃ req, parseRequest data = some req
        ∧ pb.createMessage req.method = some a.descriptor
        ∧ req.serializedRequest = a.payload := by
  rw [addressed]
  by_cases hsize : data.length < 4
  · rw [if_pos hsize]
    constructor
    · intro h
      cases h
    · rintro ⟨hfour, -⟩
      omega
  · rw [if_neg hsize, Option.bind_eq_some_iff]
    constructor
    · rintro ⟨req, hreq, hmap⟩
      obtain ⟨d, htype, ha⟩ := Option.map_eq_some_iff.mp hmap
      rw [← ha]
      exact ⟨by omega, req, hreq, htype, rfl⟩
    · rintro ⟨-, req, hreq, htype, hpayload⟩
      refine ⟨req, hreq, ?_⟩
      rw [htype, hpayload]
      rfl

/-- **`Parse`** returns a message of every envelope that gets through. -/
theorem parse_eq (data : List UInt8) :
    parse parseRequest leftover data
      = (addressed pb parseRequest data).map fun a =>
        ⟨a.descriptor, (parseFromArray leftover a.descriptor a.payload).2⟩ := by
  rw [parse, addressed]
  by_cases hsize : data.length < 4
  · rw [if_pos hsize, if_pos hsize, Option.map_none]
  · rw [if_neg hsize, if_neg hsize]
    cases parseRequest data with
    | none => rfl
    | some req =>
        cases htype : pb.createMessage req.method <;>
          simp [htype]

/-- **`OnceDispatch`** looks for the type of a message whose payload parses. -/
theorem lookup_eq (disp : Dispatcher) (data : List UInt8) :
    (dispatch parseRequest leftover disp data).lookup
      = (addressed pb parseRequest data).bind fun a =>
        (pb.parse a.descriptor a.payload).map (AnyMsg.mk a.descriptor) := by
  rw [dispatch, addressed]
  by_cases hsize : data.length < 4
  · rw [if_pos hsize, if_pos hsize, Option.bind_none]
  · rw [if_neg hsize, if_neg hsize]
    cases parseRequest data with
    | none => rfl
    | some req =>
        cases htype : pb.createMessage req.method with
        | none => simp [htype]
        | some d =>
            cases hpayload : pb.parse d req.serializedRequest with
            | none => simp [htype, hpayload, parseFromArray]
            | some message =>
                cases hreg : disp.callbackMap d <;>
                  simp [htype, hpayload, parseFromArray, hreg]

/-! ## Where they agree -/

/-- An envelope of a known type whose payload does not parse as that type. -/
def CorruptPayload (pb : Protobuf) (parseRequest : List UInt8 → Option Request)
    (data : List UInt8) : Prop :=
  4 ≤ data.length ∧ ∃ req d, parseRequest data = some req
    ∧ pb.createMessage req.method = some d ∧ pb.parse d req.serializedRequest = none

theorem corruptPayload_iff {data : List UInt8} :
    CorruptPayload pb parseRequest data
      ↔ ∃ a, addressed pb parseRequest data = some a
        ∧ pb.parse a.descriptor a.payload = none := by
  constructor
  · rintro ⟨hfour, req, d, hreq, htype, hpayload⟩
    refine ⟨⟨d, req.serializedRequest⟩, ?_, hpayload⟩
    exact (addressed_eq_some_iff parseRequest).mpr ⟨hfour, req, hreq, htype, rfl⟩
  · rintro ⟨a, ha, hpayload⟩
    obtain ⟨hfour, req, hreq, htype, hreqp⟩ :=
      (addressed_eq_some_iff parseRequest).mp ha
    refine ⟨hfour, req, a.descriptor, hreq, htype, ?_⟩
    rw [hreqp]
    exact hpayload

/-- `Parse` and `OnceDispatch` agree on what is a message. -/
structure Agree (disp : Dispatcher) (data : List UInt8) : Prop where
  reaches : (parse parseRequest leftover data).isSome
    ↔ (dispatch parseRequest leftover disp data).lookup.isSome
  contents : ∀ m m', parse parseRequest leftover data = some m →
    (dispatch parseRequest leftover disp data).lookup = some m' → m = m'
  corrupt : CorruptPayload pb parseRequest data →
    parse parseRequest leftover data = none
      ∧ (dispatch parseRequest leftover disp data).lookup = none

variable {parseRequest}

/-- A corrupt payload never gets to a callback, and `Parse` returns it. -/
theorem CorruptPayload.readers {data : List UInt8}
    (h : CorruptPayload pb parseRequest data) (disp : Dispatcher) :
    (∃ d payload, parse parseRequest leftover data
        = some ⟨d, leftover d payload⟩)
      ∧ (dispatch parseRequest leftover disp data).lookup = none := by
  obtain ⟨a, ha, hpayload⟩ := (corruptPayload_iff parseRequest).mp h
  constructor
  · refine ⟨a.descriptor, a.payload, ?_⟩
    rw [parse_eq, ha, Option.map_some, parseFromArray, hpayload]
  · rw [lookup_eq, ha, Option.bind_some, hpayload, Option.map_none]

/-- On every other input they read the same. -/
theorem parse_eq_lookup {data : List UInt8}
    (h : ¬ CorruptPayload pb parseRequest data) (disp : Dispatcher) :
    parse parseRequest leftover data
      = (dispatch parseRequest leftover disp data).lookup := by
  rw [parse_eq, lookup_eq]
  cases ha : addressed pb parseRequest data with
  | none => rfl
  | some a =>
      cases hpayload : pb.parse a.descriptor a.payload with
      | none =>
          exact absurd ((corruptPayload_iff parseRequest).mpr ⟨a, ha, hpayload⟩) h
      | some message =>
          simp [hpayload, parseFromArray]

end

/-- **THE READERS AGREE** exactly on what is not an envelope with a corrupt
    payload. -/
theorem agree_iff {pb : Protobuf} (parseRequest : List UInt8 → Option Request)
    (leftover : ∀ d, List UInt8 → pb.Msg d) (disp : Dispatcher)
    (data : List UInt8) :
    Agree parseRequest leftover disp data
      ↔ ¬ CorruptPayload pb parseRequest data := by
  constructor
  · intro hagree hcorrupt
    obtain ⟨⟨d, payload, hparse⟩, -⟩ := hcorrupt.readers leftover disp
    rw [(hagree.corrupt hcorrupt).1] at hparse
    cases hparse
  · intro hok
    have heq := parse_eq_lookup leftover hok disp
    refine ⟨?_, ?_, ?_⟩
    · rw [heq]
    · intro m m' hm hm'
      rw [heq, hm'] at hm
      exact (Option.some.inj hm).symm
    · intro hcorrupt
      exact absurd hcorrupt hok

/-! ## A truncated payload -/

/-- A message of the generated code after `Clear()`. -/
def rpcCleared : ∀ d, RpcMsg d
  | .C2S_Ping => ()
  | .S2C_Ping => ()
  | .C2S_StpCryptoNegotiate => C2SObject.of { stpGuid? := none, token? := none }
  | .S2C_StpCryptoNegotiate =>
      S2CObject.of { res? := none, stpGuid? := none, token? := none }
  | .Request => []
  | .StpCryptoMsg => []
  | .S2D_StpReportStatus => []
  | .StpToken => []
  | .other _ => []

/-- A request to negotiate that ends after the tag of its first field. -/
def truncated : Request where
  method := Descriptor.fullName .C2S_StpCryptoNegotiate
  serializedRequest? := some [0x08]

theorem corrupt_truncated :
    CorruptPayload rpcWire Request.parse truncated.serialize := by
  refine ⟨by decide, truncated, .C2S_StpCryptoNegotiate, ?_, ?_, ?_⟩
  · exact Request.parse_serialize (by decide)
  · have hd : Descriptor.C2S_StpCryptoNegotiate ∈ rpcDescriptors := by decide
    exact createMessage_fullName rpcWire hd
  · rfl

/-- `Parse` returns an empty request where the server's `OnceDispatch` sees
    none. -/
theorem truncated_disagree :
    ¬ @Agree rpcWire Request.parse (fun d _ => rpcCleared d) stpSvrMsgDispatcher
      truncated.serialize := by
  intro hagree
  have hnone := (hagree.corrupt corrupt_truncated).1
  obtain ⟨⟨d, payload, hparse⟩, -⟩ := @CorruptPayload.readers rpcWire _
    (fun d _ => rpcCleared d) _ corrupt_truncated stpSvrMsgDispatcher
  rw [hnone] at hparse
  cases hparse

end ParseDispatch
