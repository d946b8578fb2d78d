import Larder.Proofs.Framing.Delivery
import Larder.Proofs.Text.Sizes
import Larder.Response

/-!
# Reading responses back

Seven kinds of response share the payloads.  Three payloads are fixed, two kinds begin with a mark,
and values and texts take whatever is left, so that a payload is read in exactly one way: as a fixed
one, behind its mark, or as a plain value.  What is read back is the response that was sent, unless
that was a text, or a value whose bytes are not plain.  In the other direction a payload is written
again as it was, unless what stands behind its mark is no text.
-/

namespace Larder

theorem Text.ofBytesLossy_ofText (text : String) : ofBytesLossy (Bytes.ofText text) = text := by
  rw [ofBytesLossy, Bytes.toText?_ofText]

/-- Bytes are shown without loss exactly if they are text. -/
theorem Text.ofText_ofBytesLossy_iff {bytes : Bytes} :
    Bytes.ofText (ofBytesLossy bytes) = bytes ↔ ∃ text, bytes = Bytes.ofText text := by
  constructor
  · intro same
    exact ⟨_, same.symm⟩
  · rintro ⟨text, rfl⟩
    rw [ofBytesLossy_ofText]

theorem Bytes.after?_eq_none_iff {beginning bytes : Bytes} :
    bytes.after? beginning = none ↔ ¬beginning <+: bytes := by
  rw [after?, List.prefix_iff_eq_take, eq_comm (a := beginning)]
  simp

namespace Response

def fixedPayloads : List Bytes :=
  [okPayload, pongPayload, nullPayload]

/-- How the payloads of errors begin, of both kinds. -/
def marks : List Bytes :=
  [errorMark, fatalMark]

/-- Bytes that stand for nothing but themselves. -/
structure Plain (bytes : Bytes) : Prop where
  notFixed : bytes ∉ fixedPayloads
  unmarked : ∀ mark ∈ marks, ¬mark <+: bytes

/-- What a payload means. -/
inductive Means : Bytes → Response → Prop where
  | ok : Means okPayload .ok
  | pong : Means pongPayload .pong
  | null : Means nullPayload .null
  | error (rest : Bytes) : Means (errorMark ++ rest) (.error (Text.ofBytesLossy rest))
  | fatal (rest : Bytes) : Means (fatalMark ++ rest) (.fatal (Text.ofBytesLossy rest))
  | value {bytes : Bytes} (plain : Plain bytes) : Means bytes (.value bytes)

section Reading

variable {bytes : Bytes} {response : Response}

theorem not_mark_prefix_fixed : ∀ mark ∈ marks, ∀ fixed ∈ fixedPayloads, ¬mark <+: fixed := by
  decide +kernel

theorem length_mark : ∀ mark ∈ marks, mark.length = 6 := by
  decide +kernel

/-- Marks have one length, so that bytes have one mark at most. -/
theorem mark_unique {mark other rest : Bytes} (isMark : mark ∈ marks) (isOther : other ∈ marks)
    (begins : other <+: mark ++ rest) : other = mark := by
  rcases begins with ⟨rest', same⟩
  exact List.append_inj_left same ((length_mark _ isOther).trans (length_mark _ isMark).symm)

theorem notMem_fixedPayloads_iff :
    bytes ∉ fixedPayloads ↔ bytes ≠ okPayload ∧ bytes ≠ pongPayload ∧ bytes ≠ nullPayload := by
  simp [fixedPayloads]

theorem mark_append_notMem_fixed {mark : Bytes} (isMark : mark ∈ marks) (rest : Bytes) :
    mark ++ rest ∉ fixedPayloads :=
  fun isFixed => not_mark_prefix_fixed mark isMark _ isFixed (List.prefix_append mark rest)

theorem Means.ofPayload_eq (means : Means bytes response) : ofPayload bytes = response := by
  have isError : errorMark ∈ marks := List.mem_cons_self
  have isFatal : fatalMark ∈ marks := List.mem_cons_of_mem _ List.mem_cons_self
  cases means with
  | ok | pong | null => decide +kernel
  | error rest =>
      have notFixed := notMem_fixedPayloads_iff.mp (mark_append_notMem_fixed isError rest)
      have found : (errorMark ++ rest).after? errorMark = some rest :=
        Bytes.after?_eq_some_iff.mpr rfl
      simp only [ofPayload, notFixed, if_false, found]
  | fatal rest =>
      have notFixed := notMem_fixedPayloads_iff.mp (mark_append_notMem_fixed isFatal rest)
      have noError : (fatalMark ++ rest).after? errorMark = none := by
        rw [Bytes.after?_eq_none_iff]
        intro begins
        have different : errorMark ≠ fatalMark := by decide +kernel
        exact different (mark_unique isFatal isError begins)
      have found : (fatalMark ++ rest).after? fatalMark = some rest :=
        Bytes.after?_eq_some_iff.mpr rfl
      simp only [ofPayload, notFixed, if_false, noError, found]
  | value plain =>
      have notFixed := notMem_fixedPayloads_iff.mp plain.notFixed
      have noError := Bytes.after?_eq_none_iff.mpr (plain.unmarked errorMark isError)
      have noFatal := Bytes.after?_eq_none_iff.mpr (plain.unmarked fatalMark isFatal)
      simp only [ofPayload, notFixed, if_false, noError, noFatal]

theorem Means.ne_text (means : Means bytes response) (content : String) :
    response ≠ .text content := by
  cases means <;> nofun

/-- Every payload means something: it is fixed, marked or plain. -/
theorem exists_means (bytes : Bytes) : ∃ response, Means bytes response := by
  by_cases isFixed : bytes ∈ fixedPayloads
  · simp only [fixedPayloads, List.mem_cons, List.not_mem_nil, or_false] at isFixed
    rcases isFixed with rfl | rfl | rfl
    · exact ⟨_, .ok⟩
    · exact ⟨_, .pong⟩
    · exact ⟨_, .null⟩
  by_cases isError : errorMark <+: bytes
  · rcases isError with ⟨rest, rfl⟩
    exact ⟨_, .error rest⟩
  by_cases isFatal : fatalMark <+: bytes
  · rcases isFatal with ⟨rest, rfl⟩
    exact ⟨_, .fatal rest⟩
  · refine ⟨_, .value ⟨isFixed, ?_⟩⟩
    simpa [marks] using ⟨isError, isFatal⟩

theorem ofPayload_eq_iff : ofPayload bytes = response ↔ Means bytes response := by
  rcases exists_means bytes with ⟨meant, means⟩
  constructor
  · rintro rfl
    rwa [means.ofPayload_eq]
  · exact Means.ofPayload_eq

end Reading

section RoundTrips

/-- A response that its payload means.  No payload means a text. -/
def Recoverable : Response → Prop
  | .value bytes => Plain bytes
  | .text _ => False
  | .ok | .pong | .null | .error _ | .fatal _ => True

theorem ofPayload_payload_eq_self_iff (response : Response) :
    ofPayload response.payload = response ↔ response.Recoverable := by
  rw [ofPayload_eq_iff]
  constructor
  · intro means
    cases response with
    | value bytes =>
        cases means with
        | value plain => exact plain
    | text content => exact absurd rfl (means.ne_text content)
    | ok | pong | null | error | fatal => trivial
  · intro recoverable
    cases response with
    | ok => exact .ok
    | pong => exact .pong
    | null => exact .null
    | value bytes => exact .value recoverable
    | text content => exact recoverable.elim
    | error code =>
        have means := Means.error (Bytes.ofText code)
        rwa [Text.ofBytesLossy_ofText] at means
    | fatal reason =>
        have means := Means.fatal (Bytes.ofText reason)
        rwa [Text.ofBytesLossy_ofText] at means

/-- What stands behind a mark, if there is one, is text. -/
def Legible (payload : Bytes) : Prop :=
  ∀ mark ∈ marks, ∀ rest, payload = mark ++ rest → ∃ content, rest = Bytes.ofText content

theorem legible_mark_append_iff {mark rest : Bytes} (isMark : mark ∈ marks) :
    Legible (mark ++ rest) ↔ ∃ content, rest = Bytes.ofText content := by
  constructor
  · intro legible
    exact legible mark isMark rest rfl
  · intro isText other isOther rest' same
    obtain rfl : other = mark := mark_unique isMark isOther ⟨rest', same.symm⟩
    rwa [← List.append_cancel_left same]

theorem legible_of_unmarked {payload : Bytes} (unmarked : ∀ mark ∈ marks, ¬mark <+: payload) :
    Legible payload := by
  rintro mark isMark rest rfl
  exact absurd (List.prefix_append mark rest) (unmarked mark isMark)

/-- A payload is written again as it was read exactly if what is behind a mark is text. -/
theorem payload_ofPayload_eq_self_iff (payload : Bytes) :
    (ofPayload payload).payload = payload ↔ Legible payload := by
  have fixed {bytes : Bytes} (isFixed : bytes ∈ fixedPayloads) : Legible bytes :=
    legible_of_unmarked fun mark isMark => not_mark_prefix_fixed mark isMark bytes isFixed
  rcases exists_means payload with ⟨response, means⟩
  rw [means.ofPayload_eq]
  cases means with
  | ok => exact iff_of_true rfl (fixed (by simp [fixedPayloads]))
  | pong => exact iff_of_true rfl (fixed (by simp [fixedPayloads]))
  | null => exact iff_of_true rfl (fixed (by simp [fixedPayloads]))
  | error rest =>
      rw [legible_mark_append_iff (by simp [marks]), ← Text.ofText_ofBytesLossy_iff]
      exact List.append_right_inj _
  | fatal rest =>
      rw [legible_mark_append_iff (by simp [marks]), ← Text.ofText_ofBytesLossy_iff]
      exact List.append_right_inj _
  | value plain => exact iff_of_true rfl (legible_of_unmarked plain.unmarked)

end RoundTrips

section Frames

/-- Only an empty value and an empty text have an empty payload. -/
theorem payload_ne_nil {response : Response} (noValue : response ≠ .value [])
    (noText : response ≠ .text "") : response.payload ≠ [] := by
  cases response with
  | ok | pong | null => decide +kernel
  | value bytes => exact fun none => noValue (congrArg Response.value none)
  | text content => exact Bytes.ofText_ne_nil fun none => noText (congrArg Response.text none)
  | error code => exact List.append_ne_nil_of_left_ne_nil (by decide +kernel) _
  | fatal reason => exact List.append_ne_nil_of_left_ne_nil (by decide +kernel) _

/-- A framer that has room for a response takes it out as one frame, however it is cut. -/
theorem run_of_encode {limits : Limits} {response : Response} {pieces : List Bytes}
    (noValue : response ≠ .value []) (noText : response ≠ .text "")
    (roomy : response.encode.length ≤ limits.maxBuffered)
    (cut : pieces.flatten = response.encode) :
    (Framer.ofLimits limits).run [] pieces =
      ⟨[response.payload], none, Framer.ofLimits limits⟩ := by
  have alone : Frame.encodeAll [response.payload] = response.encode := by
    simp [Frame.encodeAll, encode]
  apply Framer.run_of_encodeAll_of_roomy
  · rw [List.forall_mem_singleton]
    exact Framer.frames_of_roomy Nat.one_ne_zero (payload_ne_nil noValue noText)
      (Nat.succ_le_succ roomy)
  · rw [cut, alone]
  · rwa [alone]

end Frames

/--
A response with a payload is one frame, and a framer with room for it takes out its payload and
nothing else.  The payload is read back as that response, whatever texts errors hold, unless the
response is a text, or a value that equals a fixed payload or begins with a mark; a text of other
bytes comes back as their value.  In the other direction, a payload is read as a response that is
written as the same frame, unless what stands behind its mark is no text.
-/
theorem responses_read_back :
    (∀ (response : Response) (limits : Limits) (pieces : List Bytes),
      response ≠ .value [] → response ≠ .text "" →
      response.encode.length ≤ limits.maxBuffered → pieces.flatten = response.encode →
        let progress := (Framer.ofLimits limits).run [] pieces
        progress = ⟨[response.payload], none, Framer.ofLimits limits⟩ ∧
          (progress.tokens.map ofPayload = [response] ↔ response.Recoverable) ∧
          ∀ content, response = .text content → Plain (Bytes.ofText content) →
            progress.tokens.map ofPayload = [.value (Bytes.ofText content)]) ∧
      ∀ payload, (Legible payload → (ofPayload payload).encode = Frame.encode payload) ∧
        ((ofPayload payload).payload = payload ↔ Legible payload) := by
  refine ⟨?_, ?_⟩
  · intro response limits pieces noValue noText roomy cut progress
    have arrived : progress = ⟨[response.payload], none, Framer.ofLimits limits⟩ :=
      run_of_encode noValue noText roomy cut
    have read : progress.tokens.map ofPayload = [ofPayload response.payload] := by
      rw [arrived]
      rfl
    refine ⟨arrived, ?_, ?_⟩
    · rw [read, List.singleton_inj]
      exact ofPayload_payload_eq_self_iff response
    · rintro content rfl plain
      rw [read, List.singleton_inj]
      exact (Means.value plain).ofPayload_eq
  · intro payload
    refine ⟨?_, payload_ofPayload_eq_self_iff payload⟩
    intro legible
    rw [encode, (payload_ofPayload_eq_self_iff payload).mpr legible]

/-- The text of an error may itself begin with the mark of an error, and a text comes back as a
value.  A frame may arrive in any pieces. -/
theorem responses_read_back_from_pieces :
    let limits : Limits := { maxKeyLength := 3, maxValueLength := 3 }
    let error := Response.error "ERROR ü"
    let pieces := ["14\r", "\nERROR E", "RROR ü"].map Bytes.ofText
    let info := Response.text "PONG "
    let payload := Bytes.ofText "FATAL OK"
    error.encode.length = limits.maxBuffered ∧ pieces.flatten = error.encode ∧
      (((Framer.ofLimits limits).run [] pieces).tokens.map ofPayload = [error]) ∧
      (((Framer.ofLimits limits).run [] [info.encode]).tokens.map ofPayload =
        [.value (Bytes.ofText "PONG ")]) ∧
      Legible payload ∧ (ofPayload payload).encode = Frame.encode payload := by
  intro limits error pieces info payload
  have full : error.encode.length = limits.maxBuffered := by decide +kernel
  have cut : pieces.flatten = error.encode := by decide +kernel
  have plain : Plain (Bytes.ofText "PONG ") := ⟨by decide +kernel, by decide +kernel⟩
  have legible : Legible payload := by
    have marked : payload = fatalMark ++ Bytes.ofText "OK" := by decide +kernel
    rw [marked]
    exact (legible_mark_append_iff (by simp [marks])).mpr ⟨"OK", rfl⟩
  have first := responses_read_back.1 error limits pieces nofun nofun (Nat.le_of_eq full) cut
  have second := responses_read_back.1 info limits [info.encode] nofun (by decide)
    (by decide +kernel) (by simp)
  refine ⟨full, cut, first.2.1.mpr trivial, second.2.2 _ rfl plain, legible, ?_⟩
  exact (responses_read_back.2 payload).1 legible

end Response

end Larder
