import HttpSys.Queue.Retention

/-! The size that `HeadersTooLarge` reports. One variable serves both attempts of a
receive, and it is only written when a call itself returns `ERROR_MORE_DATA`; the
count in a completion packet is dropped with the error. -/
namespace HttpSys

/-- Where http.sys reports the size that a failed receive would have needed: behind
`pBytesReturned` for a call that failed inline, else in the completion packet. -/
def Outcome.required (o : Outcome) : UInt32 := if o.status = errorMoreData then o.reported else o.len

def copyArgs (buffer : RequestBuffer) : ReceiveArgs :=
  { requestId := 0, copyBody := true, capacity := buffer.capacity }

/-- The arguments of the headers-only attempt, which asks for the request that the copy left behind. -/
def headersArgs (http : ReceiveKernel) (buffer : RequestBuffer) (mode : ReceiveMode) : ReceiveArgs where
  requestId := if mode.copyBody then (buffer.prepare.deliver (http (copyArgs buffer)).delivery).requestId else 0
  copyBody := false
  capacity := buffer.capacity

/-- What `needed` holds when the headers-only attempt starts. -/
def leftOver (http : ReceiveKernel) (buffer : RequestBuffer) (mode : ReceiveMode) : UInt32 :=
  if mode.copyBody = true ∧ (http (copyArgs buffer)).outcome.status = errorMoreData then
    (http (copyArgs buffer)).outcome.reported
  else 0

theorem finish_error {skip : Bool} {o : Outcome} {e : Error} (h : o.finish skip = .error e) : ∃ code, e = .win32 code := by
  unfold Outcome.finish at h
  split at h
  · cases h
  · split at h
    · unfold wrapResult at h
      split at h
      · cases h
      · obtain rfl := Except.error.inj h
        exact ⟨o.err, rfl⟩
    · obtain rfl := Except.error.inj h
      exact ⟨o.status, rfl⟩

theorem receiveHeaders_tooLarge {http : ReceiveKernel} {skip : Bool} {maxBytes : Nat} {buffer after : RequestBuffer}
    {requestId : UInt64} {mode mode' : ReceiveMode} {before needed : UInt32}
    (h : receiveHeaders http skip maxBytes buffer requestId mode before =
      some (.error (.headersTooLarge needed), after, mode')) :
    needed = if (http ⟨requestId, false, buffer.capacity⟩).outcome.status = errorMoreData then
      (http ⟨requestId, false, buffer.capacity⟩).outcome.reported else before := by
  cases finished : (http ⟨requestId, false, buffer.capacity⟩).outcome.finish skip with
  | ok n =>
    rw [receiveHeaders_of_ok maxBytes mode before finished] at h
    obtain ⟨fitted, -, same⟩ := Option.map_eq_some_iff.mp h
    cases (Prod.mk.inj same).1
  | error e =>
    obtain ⟨code, rfl⟩ := finish_error finished
    rw [receiveHeaders_of_error maxBytes mode before finished] at h
    have same := Except.error.inj (Prod.mk.inj (Option.some.inj h)).1
    split at same
    · exact (Error.headersTooLarge.inj same).symm
    · cases same

theorem receive_tooLarge {http : ReceiveKernel} {skip : Bool} {maxBytes : Nat} {buffer after : RequestBuffer}
    {mode mode' : ReceiveMode} {needed : UInt32}
    (h : receive http skip maxBytes buffer mode = some (.error (.headersTooLarge needed), after, mode')) :
    needed = if (http (headersArgs http buffer mode)).outcome.status = errorMoreData then
      (http (headersArgs http buffer mode)).outcome.reported else leftOver http buffer mode := by
  rcases receive_cases maxBytes http skip buffer mode with
    ⟨headers, received⟩ | ⟨copy, first, received⟩ | ⟨copy, result, finished, -, received⟩
  · rw [received] at h
    have args : headersArgs http buffer mode = ⟨0, false, buffer.capacity⟩ := by simp [headersArgs, headers]
    have left : leftOver http buffer mode = 0 := by simp [leftOver, headers]
    rw [args, left]
    exact receiveHeaders_tooLarge h
  · rw [received] at h
    have size := receiveHeaders_tooLarge h
    have args : headersArgs http buffer mode = ⟨(buffer.prepare.deliver
        (http ⟨0, true, buffer.capacity⟩).delivery).requestId, false, buffer.capacity⟩ := by
      simp [headersArgs, copyArgs, copy]
    have left : leftOver http buffer mode =
        if (http ⟨0, true, buffer.capacity⟩).outcome.status = errorMoreData then
          (http ⟨0, true, buffer.capacity⟩).outcome.reported else 0 := by
      simp [leftOver, copyArgs, copy]
    rw [args, left]
    rw [deliver_capacity, prepare_capacity] at size
    exact size
  · rw [received] at h
    have same := (Prod.mk.inj (Option.some.inj h)).1
    cases result with
    | ok n => cases same
    | error e =>
      obtain ⟨code, rfl⟩ := finish_error finished
      cases Except.error.inj same

/-- The reported size is the required one exactly when the headers-only attempt failed inline, or
its packet carries the size that the variable held before: that of a copy that failed inline, or 0. -/
theorem headersTooLarge_reports_iff (http : ReceiveKernel) (skip : Bool) (maxBytes : Nat) (buffer after : RequestBuffer)
    (mode mode' : ReceiveMode) (needed : UInt32)
    (h : receive http skip maxBytes buffer mode = some (.error (.headersTooLarge needed), after, mode')) :
    needed = (http (headersArgs http buffer mode)).outcome.required ↔
      (http (headersArgs http buffer mode)).outcome.status = errorMoreData ∨
      (http (headersArgs http buffer mode)).outcome.len = leftOver http buffer mode := by
  have size := receive_tooLarge h
  unfold Outcome.required
  by_cases inline : (http (headersArgs http buffer mode)).outcome.status = errorMoreData
  · rw [if_pos inline] at size
    rw [if_pos inline]
    exact ⟨fun _ => Or.inl inline, fun _ => size⟩
  · rw [if_neg inline] at size
    rw [if_neg inline, size]
    exact ⟨fun same => Or.inr same.symm, fun either => (either.resolve_left inline).symm⟩

/-- The headers need 20000 bytes, the whole request 70000. The copy fails inline, the headers-only
attempt as it is told. -/
def wideKernel (headers : Outcome) : ReceiveKernel := fun args =>
  { outcome := if args.copyBody then { status := errorMoreData, reported := 70000 } else headers, delivery := .id 42 }

theorem headersTooLarge_reports_inline : ∃ after mode',
    receive (wideKernel { status := errorMoreData, reported := 20000 }) true 131072 slotBuffer {} =
      some (.error (.headersTooLarge 20000), after, mode') ∧
    (20000 : UInt32) = (wideKernel { status := errorMoreData, reported := 20000 } (headersArgs
        (wideKernel { status := errorMoreData, reported := 20000 }) slotBuffer {})).outcome.required :=
  ⟨_, _, rfl, (headersTooLarge_reports_iff _ true 131072 slotBuffer _ {} _ 20000 rfl).mpr (Or.inl rfl)⟩

/-- Queued, the headers-only attempt leaves the size of the copy in place. -/
theorem headersTooLarge_reports_stale : ¬ ∀ (http : ReceiveKernel) (skip : Bool) (maxBytes : Nat)
    (buffer after : RequestBuffer) (mode mode' : ReceiveMode) (needed : UInt32),
    receive http skip maxBytes buffer mode = some (.error (.headersTooLarge needed), after, mode') →
    needed = (http (headersArgs http buffer mode)).outcome.required := by
  intro reports
  have stale := reports (wideKernel { status := errorIoPending, err := errorMoreData, len := 20000 }) true 131072
    slotBuffer _ {} _ 70000 rfl
  exact absurd stale (by decide)

end HttpSys
