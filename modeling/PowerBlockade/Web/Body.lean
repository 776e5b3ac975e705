import PowerBlockade.Web.Routes

/-!
# The body of a form

The middleware reads the body of a form to its last message and hands it on as one. A disconnect is such
a message to it.
-/

namespace PowerBlockade.Web
open Lib

/-- `http.request` and `http.disconnect`. -/
inductive AsgiMessage
  | request (body : List UInt8) (moreBody : Bool)
  | disconnect
deriving DecidableEq

/-- The `body` and the `more_body` that `_read_body` gets. -/
def AsgiMessage.got : AsgiMessage → Message
  | request body moreBody => ⟨body, moreBody⟩
  | disconnect => ⟨[], false⟩

def Request.arriving (request : Request) (arrivals : List AsgiMessage) : Request :=
  { request with messages := arrivals.map AsgiMessage.got }

/-! ## What a client sends -/

inductive Ending
  | complete
  | cut
  | pending
deriving DecidableEq

/-- The chunks as far as they come, and how they end. -/
def sent : List AsgiMessage → List UInt8 × Ending
  | [] => ([], .pending)
  | .disconnect :: _ => ([], .cut)
  | .request body false :: _ => (body, .complete)
  | .request body true :: rest => (body ++ (sent rest).1, (sent rest).2)

/-- The requests whose body the middleware reads. -/
structure ReadsBody (request : Request) : Prop where
  guarded : middleware.isExempt request.path = false
  changing : request.method ∉ safeMethods
  headless : nonempty request.header = none
  urlencoded : Python.isIn formUrlencoded (request.contentType.getD "") = true

/-- What the handler gets is the body and nothing else, its chunks decide nothing, and it is all of the body. -/
structure Transparent (fresh : Token) (request : Request) (arrivals : List AsgiMessage) : Prop where
  whole : ∀ messages setCookie, middleware.call fresh (request.arriving arrivals) = .reached messages setCookie →
    messages = [⟨(sent arrivals).1, false⟩]
  chunked : ∀ others, sent others = sent arrivals →
    middleware.call fresh (request.arriving others) = middleware.call fresh (request.arriving arrivals)
  ended : ∀ messages setCookie, middleware.call fresh (request.arriving arrivals) = .reached messages setCookie →
    (sent arrivals).2 = .complete

/-- The token that the request is checked against stands in the form. -/
def Carries (fresh : Token) (request : Request) (body : List UInt8) : Prop :=
  formToken body = some (csrfToken fresh request) ∧ isAsciiText (csrfToken fresh request) = true

/-! ## What is handed on -/

variable {fresh : Token} {request : Request} {arrivals : List AsgiMessage}

theorem readBody_got (arrivals : List AsgiMessage) : readBody (arrivals.map AsgiMessage.got) =
    if (sent arrivals).2 = .pending then none else some (sent arrivals).1 := by
  induction arrivals with
  | nil => rfl
  | cons message rest ih =>
      cases message with
      | disconnect => rfl
      | request body moreBody =>
          cases moreBody with
          | false => rfl
          | true =>
              show (readBody (rest.map AsgiMessage.got)).map (body ++ ·) = _
              rw [ih]
              by_cases pending : (sent rest).2 = .pending <;> simp [sent, pending]

theorem call_arriving (reads : ReadsBody request) (fresh : Token) (arrivals : List AsgiMessage) :
    middleware.call fresh (request.arriving arrivals) =
      if (sent arrivals).2 = .pending then .waiting
      else middleware.compare fresh request (formToken (sent arrivals).1) [⟨(sent arrivals).1, false⟩] := by
  obtain ⟨guarded, changing, headless, urlencoded⟩ := reads
  have outside : ¬ (middleware.isExempt (request.arriving arrivals).path = true ∨
      (request.arriving arrivals).method ∈ safeMethods) := not_or.mpr ⟨Bool.eq_false_iff.mp guarded, changing⟩
  have body : readBody (request.arriving arrivals).messages =
      if (sent arrivals).2 = .pending then none else some (sent arrivals).1 := readBody_got arrivals
  rw [CSRFMiddleware.call, if_neg outside, if_pos ⟨headless, urlencoded⟩, body]
  by_cases pending : (sent arrivals).2 = .pending
  · rw [if_pos pending, if_pos pending]
  · rw [if_neg pending, if_neg pending]
    rfl

theorem reached_iff (reads : ReadsBody request) :
    (∃ messages setCookie, middleware.call fresh (request.arriving arrivals) = .reached messages setCookie) ↔
      (sent arrivals).2 ≠ .pending ∧ Carries fresh request (sent arrivals).1 := by
  rw [call_arriving reads]
  by_cases pending : (sent arrivals).2 = .pending
  · simp [pending]
  · rw [if_neg pending, compare_reaches]
    exact (and_iff_right pending).symm

/-- The body is handled as it should be unless a part of it that was cut off carries the token already. -/
theorem transparent_iff (fresh : Token) (request : Request) (reads : ReadsBody request)
    (arrivals : List AsgiMessage) : Transparent fresh request arrivals ↔
      ((sent arrivals).2 = .cut → ¬ Carries fresh request (sent arrivals).1) := by
  constructor
  · intro transparent cut carries
    have present : (sent arrivals).2 ≠ .pending := by simp [cut]
    obtain ⟨messages, setCookie, reached⟩ := (reached_iff reads).mpr ⟨present, carries⟩
    have complete := transparent.ended messages setCookie reached
    simp [cut] at complete
  · intro spared
    refine ⟨fun messages setCookie reached => ?_, fun others same => ?_, fun messages setCookie reached => ?_⟩
    · rw [call_arriving reads] at reached
      split at reached
      · contradiction
      · exact messages_of_compare reached
    · rw [call_arriving reads, call_arriving reads, same]
    · obtain ⟨present, carries⟩ := (reached_iff reads).mp ⟨messages, setCookie, reached⟩
      cases ending : (sent arrivals).2 with
      | complete => rfl
      | cut => exact absurd carries (spared ending)
      | pending => exact absurd ending present

/-! ## A client that goes away -/

def submitForm : Request := ⟨"POST", "/blocking/add", some "c0ffee", none, some formUrlencoded, []⟩

theorem submitForm_read : ReadsBody submitForm := by
  constructor <;> decide +kernel

def formStart : List UInt8 := "csrf_token=c0ffee&domain=a.exam".toUTF8.toList
def formRest : List UInt8 := "ple".toUTF8.toList

theorem twoChunks_transparent :
    Transparent zeros submitForm [.request formStart true, .request formRest false] :=
  (transparent_iff zeros submitForm submitForm_read _).mpr fun cut => nomatch cut

theorem formStart_carries : Carries zeros submitForm formStart := by
  have token : csrfToken zeros submitForm = "c0ffee" := csrfToken_of_cookie zeros rfl (by decide)
  rw [Carries, token]
  constructor <;> decide +kernel

theorem cutForm_reaches :
    (∃ setCookie, middleware.call zeros (submitForm.arriving [.request formStart true, .disconnect]) =
        .reached [⟨formStart, false⟩] setCookie) ∧
      ¬ Transparent zeros submitForm [.request formStart true, .disconnect] := by
  have part : sent [.request formStart true, .disconnect] = (formStart, .cut) := by
    rw [sent, sent, List.append_nil]
  have carries : Carries zeros submitForm (sent [.request formStart true, .disconnect]).1 := by
    rw [part]
    exact formStart_carries
  obtain ⟨messages, setCookie, reached⟩ := (reached_iff submitForm_read).mpr ⟨by simp [part], carries⟩
  have received : messages = [⟨formStart, false⟩] := by
    rw [call_arriving submitForm_read, part] at reached
    exact messages_of_compare reached
  refine ⟨⟨setCookie, received ▸ reached⟩, fun transparent => ?_⟩
  have complete := transparent.ended messages setCookie reached
  rw [part] at complete
  contradiction

end PowerBlockade.Web
