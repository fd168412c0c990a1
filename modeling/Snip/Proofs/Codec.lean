/-
What a shard codec writes, it reads back.

The argument is about one frame: four bytes of length and as many bytes as they say.
Reader and writer agree on frames, but not on how long one may be: the writer stops at
what four bytes can spell, the reader at its safety limit, which is sixteen times less.
-/
import Snip.Net.Codec
import Snip.Proofs.ContentId

namespace Snip

/-! ### A frame -/

/-- A message on the wire. -/
def frame (data : Bytes) : Bytes := beBytes 4 data.length ++ data

theorem AsyncWrite.writeAll_ok {io io' : AsyncWrite} {data : Bytes}
    (h : io.writeAll data = (io', .ok ())) : io'.wire = io.wire ++ data := by
  unfold writeAll at h
  by_cases hroom : data.length ≤ io.room
  · rw [if_pos hroom, List.take_of_length_le hroom] at h
    rw [← (Prod.mk.inj h).1]
  · rw [if_neg hroom] at h
    cases (Prod.mk.inj h).2

/-- What was written without an error is one frame. -/
theorem writeLengthPrefixed_ok {io io' : AsyncWrite} {data : Bytes}
    (h : writeLengthPrefixed io data = (io', .ok ())) :
    data.length < 2 ^ 32 ∧ io'.wire = io.wire ++ frame data := by
  unfold writeLengthPrefixed at h
  split at h
  · cases h
  · rename_i hlen
    refine ⟨Nat.not_le.mp hlen, ?_⟩
    split at h
    · cases h
    · rename_i io1 hfirst
      split at h
      · cases h
      · rename_i io2 hsecond
        have hflush : io2 = io' := (Prod.mk.inj h).1
        rw [← hflush, AsyncWrite.writeAll_ok hsecond, AsyncWrite.writeAll_ok hfirst,
          List.append_assoc]
        rfl

theorem readExact_append (a b : Bytes) : readExact (a ++ b) a.length = .ok (a, b) := by
  simp [readExact]

/-- A frame within the limit is read, and nothing after it; a longer one is refused. -/
theorem readLengthPrefixed_frame {data : Bytes} (hlen : data.length < 2 ^ 32) (maxBytes : Nat)
    (rest : Bytes) :
    readLengthPrefixed (frame data ++ rest) maxBytes =
      if data.length > maxBytes then
        .error (.invalidData ("message too large: " ++ toString data.length ++ " bytes (max " ++
          toString maxBytes ++ ")"))
      else .ok (data, rest) := by
  have hhead := readExact_append (beBytes 4 data.length) (data ++ rest)
  rw [beBytes_length] at hhead
  have hvalue : beValue (beBytes 4 data.length) = data.length := by
    rw [beValue_beBytes]
    exact Nat.mod_eq_of_lt (by simpa using hlen)
  show (readExact (frame data ++ rest) 4 >>= _) = _
  rw [frame, List.append_assoc, hhead]
  show (if beValue (beBytes 4 data.length) > maxBytes then _ else _) = _
  rw [hvalue, readExact_append]

/-! ### A message in a frame -/

/-- `bincode` reads what it wrote, and all of it. -/
class LawfulBincode (α : Type) [Bincode α] : Prop where
  decode_encode {message : α} {buf : Bytes} : Bincode.encodeToVec message = .ok buf →
    Bincode.decodeFromSlice buf = .ok (message, buf.length)

section

variable {α : Type} [Bincode α]

theorem writeFrame_ok {io io' : AsyncWrite} {message : α}
    (h : writeFrame io message = (io', .ok ())) :
    ∃ buf, Bincode.encodeToVec message = .ok buf ∧ buf.length < 2 ^ 32 ∧
      io'.wire = io.wire ++ frame buf := by
  unfold writeFrame at h
  split at h
  · cases h
  · rename_i buf hbuf
    obtain ⟨hlen, hwire⟩ := writeLengthPrefixed_ok h
    exact ⟨buf, hbuf, hlen, hwire⟩

theorem decodeFrame_of_encode [LawfulBincode α] {message : α} {buf : Bytes}
    (h : Bincode.encodeToVec message = .ok buf) : decodeFrame buf = .ok message := by
  unfold decodeFrame
  rw [LawfulBincode.decode_encode h]

end

/-- What a reader makes of a message with `len` bytes of serialisation, followed by `rest`. -/
def ReadsBack {β : Type} (codec : VersionedShardCodec) (read : Except IoError (β × Bytes))
    (message : β) (len : Nat) (rest : Bytes) : Prop :=
  if len ≤ codec.maxMsgBytes then read = .ok (message, rest)
  else
    read = .error (.invalidData ("message too large: " ++ toString len ++ " bytes (max " ++
      toString codec.maxMsgBytes ++ ")"))

/-- A reader that does the right thing with the frame's content reads the message back. -/
theorem readsBack_of_frame {α β : Type} [Bincode α] [LawfulBincode α] (codec : VersionedShardCodec)
    {message : α} {buf : Bytes} (hbuf : Bincode.encodeToVec message = .ok buf)
    (hlen : buf.length < 2 ^ 32) (wrap : α → β) (rest : Bytes)
    {finish : Bytes × Bytes → Except IoError (β × Bytes)}
    (hfinish : finish (buf, rest) = (decodeFrame buf).map fun m => (wrap m, rest)) :
    ReadsBack codec (readLengthPrefixed (frame buf ++ rest) codec.maxMsgBytes >>= finish)
      (wrap message) buf.length rest := by
  unfold ReadsBack
  rw [readLengthPrefixed_frame hlen]
  by_cases hmax : buf.length ≤ codec.maxMsgBytes
  · rw [if_pos hmax, if_neg (Nat.not_lt.mpr hmax)]
    show finish (buf, rest) = _
    rw [hfinish, decodeFrame_of_encode hbuf]
    rfl
  · rw [if_neg hmax, if_pos (Nat.lt_of_not_le hmax)]
    rfl

/-- The serialisation of the message in a request. -/
def ShardRequestVersioned.encodeToVec [Bincode WireShardRequest] [Bincode ShardRequestV2] :
    ShardRequestVersioned → Except String Bytes
  | v1 message => Bincode.encodeToVec message
  | v2 message => Bincode.encodeToVec message

theorem ShardRequestVersioned.encodeToVec_v1 [Bincode WireShardRequest] [Bincode ShardRequestV2]
    (message : WireShardRequest) : (v1 message).encodeToVec = Bincode.encodeToVec message := rfl

/-- The serialisation of the message in a response. -/
def ShardResponseVersioned.encodeToVec [Bincode ShardResponse] [Bincode ShardResponseV2] :
    ShardResponseVersioned → Except String Bytes
  | v1 message => Bincode.encodeToVec message
  | v2 message => Bincode.encodeToVec message

theorem protocolV2_ne_V1 : shardXferProtocolV2 ≠ shardXferProtocolV1 := by decide

namespace VersionedShardCodec

section

variable [Bincode WireShardRequest] [Bincode ShardRequestV2]

/-- A request of the other version is refused before anything is written. -/
theorem writeRequest_wrong_version (codec : VersionedShardCodec) {protocol : Str} (io : AsyncWrite)
    {request : ShardRequestVersioned} (h : protocol ≠ request.protocol) :
    ∃ text, codec.writeRequest protocol io request = (io, .error (.invalidInput text)) := by
  cases request with
  | v1 message => exact ⟨_, if_neg h⟩
  | v2 message => exact ⟨_, if_neg h⟩

theorem writeRequest_reads_back [LawfulBincode WireShardRequest] [LawfulBincode ShardRequestV2]
    (codec : VersionedShardCodec) {protocol : Str} {io io' : AsyncWrite}
    {request : ShardRequestVersioned} (h : codec.writeRequest protocol io request = (io', .ok ())) :
    ∃ buf, request.encodeToVec = .ok buf ∧ io'.wire = io.wire ++ frame buf ∧
      ∀ rest, ReadsBack codec (codec.readRequest protocol (frame buf ++ rest)) request buf.length
        rest := by
  by_cases hproto : protocol = request.protocol
  · cases request with
    | v1 message =>
        have hwrite : writeFrame io message = (io', .ok ()) := (if_pos hproto).symm.trans h
        obtain ⟨buf, hbuf, hlen, hwire⟩ := writeFrame_ok hwrite
        refine ⟨buf, hbuf, hwire, fun rest =>
          readsBack_of_frame codec hbuf hlen ShardRequestVersioned.v1 rest ?_⟩
        exact if_pos hproto
    | v2 message =>
        have hwrite : writeFrame io message = (io', .ok ()) := (if_pos hproto).symm.trans h
        obtain ⟨buf, hbuf, hlen, hwire⟩ := writeFrame_ok hwrite
        have hother : protocol ≠ shardXferProtocolV1 := by
          rw [hproto]
          exact protocolV2_ne_V1
        refine ⟨buf, hbuf, hwire, fun rest =>
          readsBack_of_frame codec hbuf hlen ShardRequestVersioned.v2 rest ?_⟩
        exact (if_neg hother).trans (if_pos hproto)
  · obtain ⟨text, hrefused⟩ := writeRequest_wrong_version codec io hproto
    rw [hrefused] at h
    cases h

end

section

variable [Bincode ShardResponse] [Bincode ShardResponseV2]

/-- A response of the other version is refused before anything is written. -/
theorem writeResponse_wrong_version (codec : VersionedShardCodec) {protocol : Str} (io : AsyncWrite)
    {response : ShardResponseVersioned} (h : protocol ≠ response.protocol) :
    ∃ text, codec.writeResponse protocol io response = (io, .error (.invalidInput text)) := by
  cases response with
  | v1 message => exact ⟨_, if_neg h⟩
  | v2 message => exact ⟨_, if_neg h⟩

theorem writeResponse_reads_back [LawfulBincode ShardResponse] [LawfulBincode ShardResponseV2]
    (codec : VersionedShardCodec) {protocol : Str} {io io' : AsyncWrite}
    {response : ShardResponseVersioned} (h : codec.writeResponse protocol io response = (io', .ok ())) :
    ∃ buf, response.encodeToVec = .ok buf ∧ io'.wire = io.wire ++ frame buf ∧
      ∀ rest, ReadsBack codec (codec.readResponse protocol (frame buf ++ rest)) response buf.length
        rest := by
  by_cases hproto : protocol = response.protocol
  · cases response with
    | v1 message =>
        have hwrite : writeFrame io message = (io', .ok ()) := (if_pos hproto).symm.trans h
        obtain ⟨buf, hbuf, hlen, hwire⟩ := writeFrame_ok hwrite
        refine ⟨buf, hbuf, hwire, fun rest =>
          readsBack_of_frame codec hbuf hlen ShardResponseVersioned.v1 rest ?_⟩
        exact if_pos hproto
    | v2 message =>
        have hwrite : writeFrame io message = (io', .ok ()) := (if_pos hproto).symm.trans h
        obtain ⟨buf, hbuf, hlen, hwire⟩ := writeFrame_ok hwrite
        have hother : protocol ≠ shardXferProtocolV1 := by
          rw [hproto]
          exact protocolV2_ne_V1
        refine ⟨buf, hbuf, hwire, fun rest =>
          readsBack_of_frame codec hbuf hlen ShardResponseVersioned.v2 rest ?_⟩
        exact (if_neg hother).trans (if_pos hproto)
  · obtain ⟨text, hrefused⟩ := writeResponse_wrong_version codec io hproto
    rw [hrefused] at h
    cases h

end

end VersionedShardCodec

/-! ### Both protocols -/

section

variable [Bincode WireShardRequest] [Bincode ShardResponse] [Bincode ShardRequestV2]
  [Bincode ShardResponseV2] [LawfulBincode WireShardRequest] [LawfulBincode ShardResponse]
  [LawfulBincode ShardRequestV2] [LawfulBincode ShardResponseV2]

omit [Bincode ShardResponse] [Bincode ShardResponseV2] [LawfulBincode WireShardRequest]
  [LawfulBincode ShardResponse] [LawfulBincode ShardRequestV2] [LawfulBincode ShardResponseV2] in
theorem readRequest_legacy (stream : Bytes) :
    VersionedShardCodec.default.readRequest shardXferProtocolV1 stream
      = (ShardCodec.default.readRequest stream).map fun read => (.v1 read.1, read.2) := by
  show (readLengthPrefixed stream maxMsgBytes >>= _)
    = (readLengthPrefixed stream maxMsgBytes >>= _).map _
  cases readLengthPrefixed stream maxMsgBytes with
  | error e => rfl
  | ok read =>
      obtain ⟨buf, rest⟩ := read
      show (decodeFrame buf >>= _) = (decodeFrame buf >>= _).map _
      cases (decodeFrame buf : Except IoError WireShardRequest) with
      | error e => rfl
      | ok request => rfl

omit [Bincode WireShardRequest] [Bincode ShardRequestV2] [LawfulBincode WireShardRequest]
  [LawfulBincode ShardResponse] [LawfulBincode ShardRequestV2] [LawfulBincode ShardResponseV2] in
theorem readResponse_legacy (stream : Bytes) :
    VersionedShardCodec.default.readResponse shardXferProtocolV1 stream
      = (ShardCodec.default.readResponse stream).map fun read => (.v1 read.1, read.2) := by
  show (readLengthPrefixed stream maxMsgBytes >>= _)
    = (readLengthPrefixed stream maxMsgBytes >>= _).map _
  cases readLengthPrefixed stream maxMsgBytes with
  | error e => rfl
  | ok read =>
      obtain ⟨buf, rest⟩ := read
      show (decodeFrame buf >>= _) = (decodeFrame buf >>= _).map _
      cases (decodeFrame buf : Except IoError ShardResponse) with
      | error e => rfl
      | ok response => rfl

/--
**What is written within the reader's limit is read back.**  A request or response
that was written without an error is its serialisation in one frame on the wire.  If that
has at most 256 MiB, the same codec on the same protocol reads that very value from the
frame and not a byte more; if it has more, the reader refuses it by its length.  A
value of the other version leaves the wire as it was, and on the first protocol the codec
writes and reads as the legacy one.
-/
theorem written_message_reads_back (protocol : Str) (io : AsyncWrite) :
    (∀ request io',
      VersionedShardCodec.default.writeRequest protocol io request = (io', .ok ()) →
      ∃ buf, request.encodeToVec = .ok buf ∧ io'.wire = io.wire ++ frame buf ∧ ∀ rest,
        ReadsBack .default (VersionedShardCodec.default.readRequest protocol (frame buf ++ rest))
          request buf.length rest) ∧
    (∀ response io',
      VersionedShardCodec.default.writeResponse protocol io response = (io', .ok ()) →
      ∃ buf, response.encodeToVec = .ok buf ∧ io'.wire = io.wire ++ frame buf ∧ ∀ rest,
        ReadsBack .default (VersionedShardCodec.default.readResponse protocol (frame buf ++ rest))
          response buf.length rest) ∧
    (∀ request, protocol ≠ request.protocol →
      ∃ e, VersionedShardCodec.default.writeRequest protocol io request = (io, .error e)) ∧
    (∀ response, protocol ≠ response.protocol →
      ∃ e, VersionedShardCodec.default.writeResponse protocol io response = (io, .error e)) ∧
    (∀ request, VersionedShardCodec.default.writeRequest shardXferProtocolV1 io (.v1 request)
      = ShardCodec.default.writeRequest io request) ∧
    (∀ response, VersionedShardCodec.default.writeResponse shardXferProtocolV1 io (.v1 response)
      = ShardCodec.default.writeResponse io response) ∧
    (∀ stream, VersionedShardCodec.default.readRequest shardXferProtocolV1 stream
      = (ShardCodec.default.readRequest stream).map fun read => (.v1 read.1, read.2)) ∧
    (∀ stream, VersionedShardCodec.default.readResponse shardXferProtocolV1 stream
      = (ShardCodec.default.readResponse stream).map fun read => (.v1 read.1, read.2)) := by
  refine ⟨?_, ?_, ?_, ?_, ?_, ?_, readRequest_legacy, readResponse_legacy⟩
  · intro request io' h
    exact VersionedShardCodec.writeRequest_reads_back _ h
  · intro response io' h
    exact VersionedShardCodec.writeResponse_reads_back _ h
  · intro request h
    obtain ⟨text, hrefused⟩ := VersionedShardCodec.writeRequest_wrong_version .default io h
    exact ⟨_, hrefused⟩
  · intro response h
    obtain ⟨text, hrefused⟩ := VersionedShardCodec.writeResponse_wrong_version .default io h
    exact ⟨_, hrefused⟩
  · intro request
    simp [VersionedShardCodec.writeRequest, ShardCodec.writeRequest]
  · intro response
    simp [VersionedShardCodec.writeResponse, ShardCodec.writeResponse]

end

/-! ### Messages as the library writes them -/

/-- A push of the first protocol with an empty name and at least 2^16 bytes. -/
def bigPush (data : Bytes) : WireShardRequest := ⟨[], none, none, some data⟩

/-- Such pushes alone: the mark 252 stands before a length of four bytes, lowest first. -/
@[reducible] def pushBincode : Bincode WireShardRequest where
  encodeToVec request :=
    match request.pushData with
    | some data =>
        if request = bigPush data ∧ 2 ^ 16 ≤ data.length ∧ data.length < 2 ^ 32 then
          .ok ([0, 0, 0, 1, 252] ++ (beBytes 4 data.length).reverse ++ data)
        else .error "another message"
    | none => .error "another message"
  decodeFromSlice buf :=
    if buf.take 5 = [0, 0, 0, 1, 252] then .ok (bigPush (buf.drop 9), buf.length)
    else .error "another message"

theorem encode_bigPush {data : Bytes} (hlow : 2 ^ 16 ≤ data.length) (hhigh : data.length < 2 ^ 32) :
    pushBincode.encodeToVec (bigPush data)
      = .ok ([0, 0, 0, 1, 252] ++ (beBytes 4 data.length).reverse ++ data) :=
  if_pos ⟨rfl, hlow, hhigh⟩

theorem decode_bigPush (len data : Bytes) (hlen : len.length = 4) :
    pushBincode.decodeFromSlice ([0, 0, 0, 1, 252] ++ len ++ data)
      = .ok (bigPush data, ([0, 0, 0, 1, 252] ++ len ++ data).length) := by
  have hdrop : ([0, 0, 0, 1, 252] ++ len ++ data).drop 9 = data :=
    List.drop_left' (by simp [hlen])
  show (if ([0, 0, 0, 1, 252] ++ len ++ data).take 5 = [0, 0, 0, 1, 252] then _ else _) = _
  rw [if_pos (by rw [List.append_assoc]; rfl), hdrop]

theorem pushBincode_lawful : @LawfulBincode WireShardRequest pushBincode := by
  refine @LawfulBincode.mk _ pushBincode ?_
  intro request buf h
  obtain ⟨cid, offset, maxBytes, pushData⟩ := request
  cases pushData with
  | none => cases h
  | some data =>
      change (if _ = bigPush data ∧ _ then _ else _) = Except.ok buf at h
      split at h
      · rename_i hpush
        rw [← Except.ok.inj h, hpush.1]
        exact decode_bigPush _ data (by simp [beBytes_length])
      · cases h

theorem ofBytes?_bytes (h : Hash) : Hash.ofBytes? h.bytes = some h := by
  unfold Hash.ofBytes?
  rw [dif_pos h.size]

/-- Manifest requests alone: the number of the variant, then the root. -/
@[reducible] def manifestPullBincode : Bincode ShardRequestV2 where
  encodeToVec
    | .manifestPull root => .ok (3 :: root.bytes)
    | _ => .error "another message"
  decodeFromSlice
    | 3 :: rest =>
        match Hash.ofBytes? rest with
        | some root => .ok (.manifestPull root, rest.length + 1)
        | none => .error "another message"
    | _ => .error "another message"

theorem manifestPullBincode_lawful : @LawfulBincode ShardRequestV2 manifestPullBincode := by
  refine @LawfulBincode.mk _ manifestPullBincode ?_
  intro request buf h
  cases request with
  | manifestPull root =>
      rw [← Except.ok.inj h]
      show (match Hash.ofBytes? root.bytes with | some root => _ | none => _) = _
      rw [ofBytes?_bytes]
      rfl
  | _ => cases h

/-- Empty responses of the first protocol alone. -/
@[reducible] def emptyResponseBincode : Bincode ShardResponse where
  encodeToVec
    | ⟨[], 0, 0, [], none⟩ => .ok [0, 0, 0, 0, 0]
    | _ => .error "another message"
  decodeFromSlice
    | [0, 0, 0, 0, 0] => .ok (⟨[], 0, 0, [], none⟩, 5)
    | _ => .error "another message"

theorem emptyResponseBincode_lawful : @LawfulBincode ShardResponse emptyResponseBincode := by
  refine @LawfulBincode.mk _ emptyResponseBincode ?_
  intro response buf h
  change (match response with | ⟨[], 0, 0, [], none⟩ => _ | _ => _) = Except.ok buf at h
  split at h
  · rw [← Except.ok.inj h]
    rfl
  · cases h

/-- Acknowledged manifests alone: the number of the variant, the root, no error. -/
@[reducible] def manifestPushAckBincode : Bincode ShardResponseV2 where
  encodeToVec
    | .manifestPushAck root none => .ok (2 :: (root.bytes ++ [0]))
    | _ => .error "another message"
  decodeFromSlice
    | 2 :: rest =>
        match Hash.ofBytes? rest.dropLast with
        | some root => .ok (.manifestPushAck root none, rest.length + 1)
        | none => .error "another message"
    | _ => .error "another message"

theorem manifestPushAckBincode_lawful : @LawfulBincode ShardResponseV2 manifestPushAckBincode := by
  refine @LawfulBincode.mk _ manifestPushAckBincode ?_
  intro response buf h
  cases response with
  | manifestPushAck root error =>
      cases error with
      | none =>
          rw [← Except.ok.inj h]
          show (match Hash.ofBytes? (root.bytes ++ [0]).dropLast with
            | some root => _ | none => _) = _
          rw [List.dropLast_concat, ofBytes?_bytes]
          rfl
      | some text => cases h
  | _ => cases h

/-- A stream that takes everything. -/
def openStream : AsyncWrite := ⟨[], 2 ^ 33, true⟩

theorem writeFrame_openStream {α : Type} [Bincode α] {message : α} {buf : Bytes}
    (hbuf : Bincode.encodeToVec message = .ok buf) (hlen : buf.length < 2 ^ 32) :
    writeFrame openStream message = (⟨frame buf, 2 ^ 33 - 4 - buf.length, true⟩, .ok ()) := by
  have htake : buf.take (2 ^ 33 - 4) = buf := List.take_of_length_le (by omega)
  have hhead : (beBytes 4 buf.length).take (2 ^ 33) = beBytes 4 buf.length :=
    List.take_of_length_le (by rw [beBytes_length]; omega)
  unfold writeFrame
  rw [hbuf]
  dsimp only
  unfold writeLengthPrefixed
  rw [if_neg (Nat.not_le.mpr hlen)]
  unfold AsyncWrite.writeAll openStream
  rw [beBytes_length, if_pos (by norm_num), hhead]
  dsimp only
  rw [if_pos (by omega), htake]
  rfl

/-- A manifest request is read back. -/
theorem manifest_request_reads_back :
    letI := pushBincode
    letI := manifestPullBincode
    letI := emptyResponseBincode
    letI := manifestPushAckBincode
    LawfulBincode WireShardRequest ∧ LawfulBincode ShardRequestV2 ∧ LawfulBincode ShardResponse ∧
    LawfulBincode ShardResponseV2 ∧
    ∃ io', VersionedShardCodec.default.writeRequest shardXferProtocolV2 openStream
        (.v2 (.manifestPull Hash.zero)) = (io', .ok ()) ∧
      VersionedShardCodec.default.readRequest shardXferProtocolV2 io'.wire
        = .ok (.v2 (.manifestPull Hash.zero), []) := by
  let := pushBincode
  let := manifestPullBincode
  let := emptyResponseBincode
  let := manifestPushAckBincode
  have l1 : LawfulBincode WireShardRequest := pushBincode_lawful
  have l2 : LawfulBincode ShardRequestV2 := manifestPullBincode_lawful
  have l3 : LawfulBincode ShardResponse := emptyResponseBincode_lawful
  have l4 : LawfulBincode ShardResponseV2 := manifestPushAckBincode_lawful
  refine ⟨l1, l2, l3, l4, ?_⟩
  have hlen : (3 :: Hash.zero.bytes : Bytes).length = 33 := by rw [List.length_cons, Hash.zero.size]
  have hwrite : VersionedShardCodec.default.writeRequest shardXferProtocolV2 openStream
      (.v2 (.manifestPull Hash.zero))
      = (⟨frame (3 :: Hash.zero.bytes), 2 ^ 33 - 4 - (3 :: Hash.zero.bytes : Bytes).length, true⟩, .ok ()) := by
    simp only [VersionedShardCodec.writeRequest, if_true]
    exact writeFrame_openStream rfl (by rw [hlen]; norm_num)
  obtain ⟨buf, hbuf, -, hread⟩ :=
    (written_message_reads_back shardXferProtocolV2 openStream).1 _ _ hwrite
  refine ⟨_, hwrite, ?_⟩
  obtain rfl : 3 :: Hash.zero.bytes = buf := Except.ok.inj hbuf
  have hback := hread []
  unfold ReadsBack at hback
  rw [if_pos (by rw [hlen]; decide), List.append_nil] at hback
  exact hback

/-- 256 MiB of data and what goes with it are written, and the reader refuses them. -/
theorem long_push_is_refused :
    letI := pushBincode
    letI := manifestPullBincode
    LawfulBincode WireShardRequest ∧ LawfulBincode ShardRequestV2 ∧
    ∃ io', VersionedShardCodec.default.writeRequest shardXferProtocolV1 openStream
        (.v1 (bigPush (List.replicate maxMsgBytes 0))) = (io', .ok ()) ∧
      ∀ answer, VersionedShardCodec.default.readRequest shardXferProtocolV1 io'.wire
        ≠ .ok answer := by
  let := pushBincode
  let := manifestPullBincode
  have l1 : LawfulBincode WireShardRequest := pushBincode_lawful
  have l2 : LawfulBincode ShardRequestV2 := manifestPullBincode_lawful
  refine ⟨l1, l2, ?_⟩
  generalize hdata : List.replicate maxMsgBytes (0 : UInt8) = data
  have hlen : data.length = maxMsgBytes := by rw [← hdata, List.length_replicate]
  have hlow : 2 ^ 16 ≤ data.length := by rw [hlen]; decide
  have hhigh : data.length < 2 ^ 32 := by rw [hlen]; decide
  have hbuf := encode_bigPush hlow hhigh
  have hwrite : VersionedShardCodec.default.writeRequest shardXferProtocolV1 openStream
      (.v1 (bigPush data)) = writeFrame openStream (bigPush data) := by
    simp only [VersionedShardCodec.writeRequest, if_true]
  have hlong : ([0, 0, 0, 1, 252] ++ (beBytes 4 data.length).reverse ++ data).length
      = 9 + maxMsgBytes := by
    simp only [List.length_append, List.length_reverse, beBytes_length, hlen]
    rfl
  rw [writeFrame_openStream hbuf (by rw [hlong]; decide)] at hwrite
  refine ⟨_, hwrite, fun answer hread => ?_⟩
  obtain ⟨buf, hencoded, -, hback⟩ := VersionedShardCodec.writeRequest_reads_back _ hwrite
  rw [ShardRequestVersioned.encodeToVec_v1, hbuf] at hencoded
  obtain rfl := Except.ok.inj hencoded
  have hrefused := hback []
  unfold ReadsBack at hrefused
  have hmax : ¬ 9 + maxMsgBytes ≤ VersionedShardCodec.default.maxMsgBytes := by
    show ¬ 9 + maxMsgBytes ≤ maxMsgBytes
    omega
  rw [hlong, if_neg hmax, List.append_nil, hread] at hrefused
  cases hrefused

end Snip
