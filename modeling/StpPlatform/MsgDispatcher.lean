import StpPlatform.ByteMemory
import StpPlatform.RpcWire

/-! # Envelopes (`codec/proto_msg_serialization`, `codec/proto_msg_dispatcher`)

    A message travels in an envelope, `rpc::Request`, that names its type.
    `serializeToArray` writes the message and then the envelope into one buffer
    of the caller; `onceDispatch` reads the envelope, makes a message of the
    type it names, and calls what is registered for that type.

    The messages' own encoding is a parameter, `Protobuf`.  `Inverts` is what
    its documentation promises, and `envelope_dispatched` is the round trip.
    `rpcWire` is the encoding that `rpc.pb.cc` has. -/

namespace MsgDispatcher

open ByteMemory ProtoWire Rpc RpcWire

/-! ## Types of messages -/

/-- `google::protobuf::Descriptor`: the types of `rpc.proto`, and those of other
    files that are linked in. -/
inductive Descriptor where
  | Request
  | C2S_Ping
  | S2C_Ping
  | StpCryptoMsg
  | C2S_StpCryptoNegotiate
  | S2C_StpCryptoNegotiate
  | S2D_StpReportStatus
  | StpToken
  | other (fullName : List UInt8)
  deriving DecidableEq

/-- `GetTypeName()`. -/
def Descriptor.fullName : Descriptor → List UInt8
  | .Request => ascii "rpc.Request"
  | .C2S_Ping => ascii "rpc.C2S_Ping"
  | .S2C_Ping => ascii "rpc.S2C_Ping"
  | .StpCryptoMsg => ascii "rpc.StpCryptoMsg"
  | .C2S_StpCryptoNegotiate => ascii "rpc.C2S_StpCryptoNegotiate"
  | .S2C_StpCryptoNegotiate => ascii "rpc.S2C_StpCryptoNegotiate"
  | .S2D_StpReportStatus => ascii "rpc.S2D_StpReportStatus"
  | .StpToken => ascii "rpc.StpToken"
  | .other fullName => fullName

/-- The types of `rpc.proto`. -/
def rpcDescriptors : List Descriptor :=
  [.Request, .C2S_Ping, .S2C_Ping, .StpCryptoMsg, .C2S_StpCryptoNegotiate,
    .S2C_StpCryptoNegotiate, .S2D_StpReportStatus, .StpToken]

/-- The protobuf runtime and the generated code: the messages of each type, how
    they are written and read, and the other types in the generated pool. -/
structure Protobuf where
  Msg : Descriptor → Type
  serialize : ∀ d, Msg d → List UInt8
  parse : ∀ d, List UInt8 → Option (Msg d)
  linked : List UInt8 → Bool

/-- **PARSE INVERTS SERIALIZE**, up to the sizes an `int` holds. -/
def Protobuf.Inverts (pb : Protobuf) (d : Descriptor) : Prop :=
  ∀ m : pb.Msg d, (pb.serialize d m).length < 0x80000000 →
    pb.parse d (pb.serialize d m) = some m

/-- `DescriptorPool::generated_pool()->FindMessageTypeByName(type_name)`. -/
def Protobuf.findMessageTypeByName (pb : Protobuf) (typeName : List UInt8) :
    Option Descriptor :=
  match rpcDescriptors.find? (fun d => d.fullName = typeName) with
  | some d => some d
  | none => if pb.linked typeName then some (.other typeName) else none

/-- `Message* MsgDispatcher::CreateMessage(const std::string&)`: the type of the
    message that is made.  Every type of the pool has a prototype. -/
def Protobuf.createMessage (pb : Protobuf) (typeName : List UInt8) :
    Option Descriptor :=
  pb.findMessageTypeByName typeName

/-- A type of `rpc.proto` is found by its name. -/
theorem createMessage_fullName (pb : Protobuf) {d : Descriptor}
    (h : d ∈ rpcDescriptors) : pb.createMessage d.fullName = some d := by
  have hfind : ∀ e ∈ rpcDescriptors,
      rpcDescriptors.find? (fun d => d.fullName = e.fullName) = some e := by decide
  rw [Protobuf.createMessage, Protobuf.findMessageTypeByName, hfind d h]

/-! ## `SerializeToArray` -/

/-- What `SerializeToArray` leaves: its result, the buffer and `size`. -/
structure Serialized where
  ret : Bool
  array : Bytes
  size : Int32

/-- The first `size` bytes of the buffer. -/
def Serialized.data (r : Serialized) : List UInt8 := read r.array 0 r.size.toInt.toNat

/-- `Message::SerializeToArray(array, size)` of a message with these bytes. -/
def toArray (bytes : List UInt8) (array : Bytes) (size : Int32) : Option Bytes :=
  if size.toInt < bytes.length then none else some (write array 0 bytes)

/-- The envelope of a message. -/
def envelope (pb : Protobuf) {d : Descriptor} (msg : pb.Msg d) : Request where
  method := d.fullName
  serializedRequest? := some (pb.serialize d msg)

/-- `bool SerializeToArray(const ProtoMessage&, void* array, int& size)`. -/
def serializeToArray (pb : Protobuf) {d : Descriptor} (msg : pb.Msg d)
    (array : Bytes) (size : Int32) : Serialized :=
  match toArray (pb.serialize d msg) array size with
  | none => ⟨false, array, size⟩
  | some array =>
      let req : Request :=
        { method := d.fullName
          -- copied out of the buffer before the buffer is written again
          serializedRequest? := some (read array 0 (pb.serialize d msg).length) }
      match toArray req.serialize array size with
      | none => ⟨false, array, size⟩
      | some array => ⟨true, array, Int32.ofNat req.serialize.length⟩

/-! ## `OnceDispatch` -/

/-- The methods `OnSync##msg` of the two dispatchers. -/
inductive Delegate where
  | svrOnSyncC2S_Ping
  | svrOnSyncC2S_StpCryptoNegotiate
  | clntOnSyncS2C_Ping
  | clntOnSyncS2C_StpCryptoNegotiate
  deriving DecidableEq, Repr

/-- The type to which the method casts its message, `static_cast<rpc::msg*>(m)`. -/
def Delegate.castsTo : Delegate → Descriptor
  | .svrOnSyncC2S_Ping => .C2S_Ping
  | .svrOnSyncC2S_StpCryptoNegotiate => .C2S_StpCryptoNegotiate
  | .clntOnSyncS2C_Ping => .S2C_Ping
  | .clntOnSyncS2C_StpCryptoNegotiate => .S2C_StpCryptoNegotiate

/-- `class MsgDispatcher`: the callback map. -/
structure Dispatcher where
  callbackMap : Descriptor → Option Delegate

/-- `MsgDispatcher()`: nothing is registered. -/
def Dispatcher.new : Dispatcher := ⟨fun _ => none⟩

/-- `void RegisterMessageCallback<T>(Delegate)`. -/
def Dispatcher.registerMessageCallback (t : Descriptor) (d : Delegate)
    (disp : Dispatcher) : Dispatcher :=
  ⟨Function.update disp.callbackMap t (some d)⟩

/-- `StpSvrMsgDispatcher::StpSvrMsgDispatcher()`. -/
def stpSvrMsgDispatcher : Dispatcher :=
  (Dispatcher.new.registerMessageCallback .C2S_Ping .svrOnSyncC2S_Ping)
    |>.registerMessageCallback .C2S_StpCryptoNegotiate
      .svrOnSyncC2S_StpCryptoNegotiate

/-- `StpClntMsgDispatcher::StpClntMsgDispatcher()`. -/
def stpClntMsgDispatcher : Dispatcher :=
  (Dispatcher.new.registerMessageCallback .S2C_Ping .clntOnSyncS2C_Ping)
    |>.registerMessageCallback .S2C_StpCryptoNegotiate
      .clntOnSyncS2C_StpCryptoNegotiate

/-- A callback that was invoked, and the message it was handed. -/
structure Invocation (pb : Protobuf) where
  callback : Delegate
  descriptor : Descriptor
  message : pb.Msg descriptor

/-- `bool MsgDispatcher::OnceDispatch(Connection*, const void*, unsigned int)`:
    its result, and the callbacks it invokes. -/
def Dispatcher.onceDispatch (disp : Dispatcher) (pb : Protobuf)
    (data : List UInt8) : Bool × List (Invocation pb) :=
  if data.length < 4 then (false, [])
  else
    match Request.parse data with
    | none => (false, [])
    | some req =>
        match pb.createMessage req.method with
        | none => (true, [])
        | some d =>
            match pb.parse d req.serializedRequest with
            | none => (true, [])
            | some message =>
                match disp.callbackMap d with
                | none => (true, [])
                | some callback => (true, [⟨callback, d, message⟩])

/-! ## The round trip -/

section

variable {pb : Protobuf} {d : Descriptor} {msg : pb.Msg d} {array : Bytes}
  {size : Int32}

/-- The message is part of its envelope. -/
theorem length_le_envelope (msg : pb.Msg d) :
    (pb.serialize d msg).length ≤ (envelope pb msg).serialize.length :=
  @length_le_encode _ 2 _ (List.mem_cons_of_mem _ List.mem_cons_self)

/-- The inner message is copied before the envelope overwrites it. -/
theorem envelope_read (msg : pb.Msg d) (array : Bytes) :
    (⟨d.fullName, some (read (write array 0 (pb.serialize d msg)) 0
      (pb.serialize d msg).length)⟩ : Request) = envelope pb msg := by
  rw [read_write_self rfl]
  rfl

theorem serializeToArray_fits
    (h : ((envelope pb msg).serialize.length : Int) ≤ size.toInt) :
    serializeToArray pb msg array size
      = ⟨true, write (write array 0 (pb.serialize d msg)) 0
          (envelope pb msg).serialize,
        Int32.ofNat (envelope pb msg).serialize.length⟩ := by
  have hle := length_le_envelope msg
  rw [serializeToArray, toArray, if_neg (by omega)]
  simp only [envelope_read, toArray, if_neg (show ¬ size.toInt
    < (envelope pb msg).serialize.length by omega)]

/-- The second check refuses what does not fit; the first never refuses more. -/
theorem serializeToArray_full
    (h : size.toInt < ((envelope pb msg).serialize.length : Int)) :
    (serializeToArray pb msg array size).ret = false := by
  rw [serializeToArray, toArray]
  by_cases hmsg : size.toInt < (pb.serialize d msg).length
  · rw [if_pos hmsg]
  · rw [if_neg hmsg]
    simp only [envelope_read, toArray, if_pos h]

theorem serializeToArray_ret_iff :
    (serializeToArray pb msg array size).ret = true
      ↔ ((envelope pb msg).serialize.length : Int) ≤ size.toInt := by
  constructor
  · intro hret
    by_contra hfull
    rw [serializeToArray_full (by omega)] at hret
    cases hret
  · intro hfits
    rw [serializeToArray_fits hfits]

/-- **WHAT IS SENT** is the envelope, whatever the buffer held. -/
theorem serializeToArray_data
    (hret : (serializeToArray pb msg array size).ret = true) :
    (serializeToArray pb msg array size).data = (envelope pb msg).serialize := by
  have hfits := serializeToArray_ret_iff.mp hret
  have hint := size.toInt_lt
  have hsize : (Int32.ofNat (envelope pb msg).serialize.length).toInt
      = (envelope pb msg).serialize.length := Int32.toInt_ofNat_of_lt (by omega)
  rw [serializeToArray_fits hfits, Serialized.data]
  show read _ 0 (Int32.toInt (Int32.ofNat _)).toNat = _
  rw [hsize]
  exact read_write_self rfl

/-- An envelope reaches the callback of its message's type, if that type has one. -/
theorem onceDispatch_envelope {disp : Dispatcher} {callback : Delegate}
    (hd : d ∈ rpcDescriptors) (hreg : disp.callbackMap d = some callback)
    (hinv : pb.Inverts d)
    (hlen : (envelope pb msg).serialize.length < 0x80000000) :
    disp.onceDispatch pb (envelope pb msg).serialize
      = (true, [⟨callback, d, msg⟩]) := by
  have hparse : Request.parse (envelope pb msg).serialize
      = some (envelope pb msg) := Request.parse_serialize (by omega)
  have hmsg : pb.parse d (envelope pb msg).serializedRequest = some msg :=
    hinv msg (by have hle := length_le_envelope msg; omega)
  -- the type name alone is longer than the four bytes that are asked for
  have hname : 4 ≤ d.fullName.length := by
    have hnames : ∀ e ∈ rpcDescriptors, 4 ≤ e.fullName.length := by decide
    exact hnames d hd
  have hfour : 4 ≤ (envelope pb msg).serialize.length :=
    Nat.le_trans hname (Request.length_method_le (envelope pb msg))
  have htype : pb.createMessage (envelope pb msg).method = some d :=
    createMessage_fullName pb hd
  rw [Dispatcher.onceDispatch, if_neg (by omega)]
  simp only [hparse, htype, hmsg, hreg]

end

/-- Every callback is registered for the type that its cast assumes. -/
theorem registered_cast {disp : Dispatcher}
    (hdisp : disp = stpSvrMsgDispatcher ∨ disp = stpClntMsgDispatcher)
    {d : Descriptor} {callback : Delegate}
    (hreg : disp.callbackMap d = some callback) :
    d ∈ rpcDescriptors ∧ callback.castsTo = d := by
  rcases hdisp with hdisp | hdisp <;> subst hdisp <;> cases d <;> cases hreg
  all_goals exact ⟨by decide, rfl⟩

/-! ## The encoding of `rpc.pb.cc` -/

/-- The objects of the generated classes; of a type that neither program sends,
    the fields. -/
def RpcMsg : Descriptor → Type
  | .C2S_Ping => Unit
  | .S2C_Ping => Unit
  | .C2S_StpCryptoNegotiate => C2SObject
  | .S2C_StpCryptoNegotiate => S2CObject
  | _ => List Field

/-- What is written for a message of each type of `rpc.proto`. -/
def rpcSerialize : ∀ d, RpcMsg d → List UInt8
  | .C2S_Ping, m => serializePing m
  | .S2C_Ping, m => serializePing m
  | .C2S_StpCryptoNegotiate, m => serializeC2S m.1
  | .S2C_StpCryptoNegotiate, m => serializeS2C m.1
  | .Request, m => encode m
  | .StpCryptoMsg, m => encode m
  | .S2D_StpReportStatus, m => encode m
  | .StpToken, m => encode m
  | .other _, m => encode m

/-- What is read as one. -/
def rpcParse : ∀ d, List UInt8 → Option (RpcMsg d)
  | .C2S_Ping, bs => parsePing bs
  | .S2C_Ping, bs => parsePing bs
  | .C2S_StpCryptoNegotiate, bs => (parseC2S bs).map C2SObject.of
  | .S2C_StpCryptoNegotiate, bs => (parseS2C bs).map S2CObject.of
  | .Request, bs => decode (fun _ => false) recursionLimit bs
  | .StpCryptoMsg, bs => decode (fun k => k = 1) recursionLimit bs
  | .S2D_StpReportStatus, bs => decode (fun _ => false) recursionLimit bs
  | .StpToken, bs => decode (fun _ => false) recursionLimit bs
  | .other _, bs => decode (fun _ => false) recursionLimit bs

/-- The generated code; nothing else is linked in. -/
def rpcWire : Protobuf where
  Msg := RpcMsg
  serialize := rpcSerialize
  parse := rpcParse
  linked := fun _ => false

theorem rpcWire_inverts_c2s : rpcWire.Inverts .C2S_StpCryptoNegotiate := by
  intro (m : C2SObject) hm
  have hlen : (serializeC2S m.1).length < 0x80000000 := hm
  show (parseC2S (serializeC2S m.1)).map C2SObject.of = some m
  rw [parseC2S_serializeC2S hlen, Option.map_some,
    C2SObject.of_wrap]

theorem rpcWire_inverts_s2c : rpcWire.Inverts .S2C_StpCryptoNegotiate := by
  intro (m : S2CObject) hm
  have hlen : (serializeS2C m.1).length < 0x80000000 := hm
  show (parseS2C (serializeS2C m.1)).map S2CObject.of = some m
  rw [parseS2C_serializeS2C hlen, Option.map_some,
    S2CObject.of_wrap]

/-- **THE GENERATED CODE INVERTS** every message for which there is a callback. -/
theorem rpcWire_inverts {disp : Dispatcher}
    (hdisp : disp = stpSvrMsgDispatcher ∨ disp = stpClntMsgDispatcher)
    {d : Descriptor} {callback : Delegate}
    (hreg : disp.callbackMap d = some callback) : rpcWire.Inverts d := by
  obtain ⟨-, hcast⟩ := registered_cast hdisp hreg
  cases callback <;> cases hcast
  · exact fun _ _ => rfl
  · exact rpcWire_inverts_c2s
  · exact fun _ _ => rfl
  · exact rpcWire_inverts_s2c

/-! ## Dispatching an envelope -/

/-- **ENVELOPE ROUND TRIP**: whatever fits the buffer is dispatched to the one
    callback that is registered for it. -/
theorem envelope_dispatched (pb : Protobuf) {disp : Dispatcher}
    (hdisp : disp = stpSvrMsgDispatcher ∨ disp = stpClntMsgDispatcher)
    {d : Descriptor} {callback : Delegate}
    (hreg : disp.callbackMap d = some callback) (hinv : pb.Inverts d)
    (msg : pb.Msg d) (array : Bytes) (size : Int32) :
    ((serializeToArray pb msg array size).ret = true
        ↔ ((envelope pb msg).serialize.length : Int) ≤ size.toInt)
      ∧ ((serializeToArray pb msg array size).ret = true →
        disp.onceDispatch pb (serializeToArray pb msg array size).data
            = (true, [⟨callback, d, msg⟩])
          ∧ callback.castsTo = d) := by
  obtain ⟨hd, hcast⟩ := registered_cast hdisp hreg
  refine ⟨serializeToArray_ret_iff, ?_⟩
  intro hret
  have hfits := serializeToArray_ret_iff.mp hret
  have hint := size.toInt_lt
  rw [serializeToArray_data hret]
  exact ⟨onceDispatch_envelope hd hreg hinv (by omega), hcast⟩

/-- A client's first request, and the client's buffer of 2048 bytes with it. -/
def firstObject : rpcWire.Msg .C2S_StpCryptoNegotiate :=
  C2SObject.of { stpGuid? := some 1, token? := none }

/-- The envelope of the first object in a buffer of 2048 bytes. -/
def firstSerialized : Serialized :=
  serializeToArray rpcWire firstObject (fun _ => 0) 2048

theorem envelope_dispatched_firstObject :
    (firstSerialized.ret = true
        ↔ ((envelope rpcWire firstObject).serialize.length : Int)
          ≤ Int32.toInt 2048)
      ∧ (firstSerialized.ret = true →
        stpSvrMsgDispatcher.onceDispatch rpcWire firstSerialized.data
            = (true, [⟨.svrOnSyncC2S_StpCryptoNegotiate, _, firstObject⟩])
          ∧ Delegate.castsTo .svrOnSyncC2S_StpCryptoNegotiate
            = .C2S_StpCryptoNegotiate) :=
  envelope_dispatched rpcWire (Or.inl rfl) rfl rpcWire_inverts_c2s firstObject
    (fun _ => 0) 2048

end MsgDispatcher
