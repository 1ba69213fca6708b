import StatusPage.Command.Run

namespace StatusPage

theorem Delta.toSpan?_of_span (span : Span) :
    Delta.toSpan? ⟨span.nanoseconds⟩ = some span := by
  simp [toSpan?, span.fits]

namespace Settings

theorem timeout_ok_iff (settings : Settings) (delta : Delta) :
    settings.timeout = .ok delta ↔
      ∃ span, Span.read settings.confirmTimeout.toList = .ok span ∧ span ≠ .zero ∧
        span.nanoseconds ≤ Delta.limit ∧ delta = ⟨span.nanoseconds⟩ := by
  unfold timeout
  cases Span.read settings.confirmTimeout.toList with
  | error failure => simp
  | ok span =>
    by_cases zero : span = .zero
    · simp [zero]
    · by_cases fits : span.nanoseconds ≤ Delta.limit
      · simp [zero, fits, Delta.ofSpan?, eq_comm]
      · simp [zero, fits, Delta.ofSpan?]

theorem openSession_of_timeout {settings : Settings} {timeout : Delta}
    (accepted : settings.timeout = .ok timeout) :
    ∃ window, timeout.toSpan? = some window ∧
      Command.openSession settings = .ok (window.text, .new timeout) := by
  obtain ⟨window, -, -, -, rfl⟩ := (timeout_ok_iff settings timeout).mp accepted
  refine ⟨window, Delta.toSpan?_of_span window, ?_⟩
  simp [Command.openSession, accepted, Delta.toSpan?_of_span]

end Settings

end StatusPage
