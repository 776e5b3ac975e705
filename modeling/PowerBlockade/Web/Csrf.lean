import PowerBlockade.Lib.QueryString
import PowerBlockade.Python

/-!
# The CSRF middleware

Every request passes it before it comes to its route. The token of the cookie has to come back in a
header or in the form.
-/

namespace PowerBlockade.Web
open Lib

/-! ## Requests -/

/-- What `receive` gives; a disconnected client is the empty last message. -/
structure Message where
  body : List UInt8
  moreBody : Bool
deriving DecidableEq

/-- `cookie` and `header` are the values of `csrf_token` and `X-CSRF-Token`. -/
structure Request where
  method : String
  path : String
  cookie : Option String
  header : Option String
  contentType : Option String
  messages : List Message

/-- What `secrets.token_hex(32)` gives. -/
structure Token where
  text : String
  length : text.length = 64
  hex : ∀ c ∈ text.toList, c ∈ "0123456789abcdef".toList

inductive Outcome
  | reached (messages : List Message) (setCookie : Option String)
  | response (status : Nat) (content : String)
  | raised
  | waiting

/-! ## The middleware -/

structure CSRFMiddleware where
  exemptPaths : List String
  cookieSecure : Bool

def safeMethods : List String := ["GET", "HEAD", "OPTIONS", "TRACE"]

def formUrlencoded : String := "application/x-www-form-urlencoded"

/-- An empty value is as good as none. -/
def nonempty (value : Option String) : Option String := value.filter (· ≠ "")

/-- `none` while the last message has not come. -/
def readBody : List Message → Option (List UInt8)
  | [] => none
  | message :: rest =>
      if message.moreBody then (readBody rest).map (message.body ++ ·) else some message.body

/-- The first `csrf_token` of the body; one that is no UTF-8 has none. -/
def formToken (body : List UInt8) : Option String :=
  (Utf8.decode body).bind fun text =>
    ((QueryString.parseQsl text).lookup "csrf_token".toList).map String.ofList

def isAsciiText (text : String) : Bool := text.toList.all QueryString.isAscii

/-- `none` is its `TypeError`. -/
def compareDigest (a b : String) : Option Bool :=
  if isAsciiText a ∧ isAsciiText b then some (decide (a = b)) else none

def csrfToken (fresh : Token) (request : Request) : String := (nonempty request.cookie).getD fresh.text

namespace CSRFMiddleware

def isExempt (self : CSRFMiddleware) (path : String) : Bool :=
  self.exemptPaths.any fun exempt => exempt.toList.isPrefixOf path.toList

def callWithCookie (self : CSRFMiddleware) (fresh : Token) (request : Request)
    (messages : List Message) : Outcome :=
  .reached messages <|
    if nonempty request.cookie = none then
      some (s!"csrf_token={csrfToken fresh request}; Path=/; SameSite=Lax; Max-Age=604800" ++
        if self.cookieSecure then "; Secure" else "")
    else none

def forbidden : Outcome := .response 403 "CSRF token missing or invalid"

def compare (self : CSRFMiddleware) (fresh : Token) (request : Request) (submitted : Option String)
    (messages : List Message) : Outcome :=
  match nonempty submitted with
  | none => forbidden
  | some submitted =>
      match compareDigest (csrfToken fresh request) submitted with
      | some true => self.callWithCookie fresh request messages
      | some false => forbidden
      | none => .raised

/-- `__call__`; a body that was read for its form is handed on as one message. -/
def call (self : CSRFMiddleware) (fresh : Token) (request : Request) : Outcome :=
  if self.isExempt request.path ∨ request.method ∈ safeMethods then
    self.callWithCookie fresh request request.messages
  else if nonempty request.header = none ∧ Python.isIn formUrlencoded (request.contentType.getD "") then
    match readBody request.messages with
    | none => .waiting
    | some body => self.compare fresh request (formToken body) [⟨body, false⟩]
  else self.compare fresh request request.header request.messages

end CSRFMiddleware

/-- The one of `main.py`. -/
def middleware : CSRFMiddleware where
  exemptPaths := ["/api/", "/health", "/metrics", "/grafana/"]
  cookieSecure := false

def Reaches (fresh : Token) (request : Request) : Prop :=
  ∃ messages setCookie, middleware.call fresh request = .reached messages setCookie

/-! ## What lets a request through -/

variable {self : CSRFMiddleware} {fresh : Token} {request : Request} {token : String}

/-- The token that the middleware finds in a request. -/
def Submits (request : Request) (token : String) : Prop :=
  nonempty request.header = some token ∨
    nonempty request.header = none ∧ Python.isIn formUrlencoded (request.contentType.getD "") = true ∧
      ∃ body, readBody request.messages = some body ∧ formToken body = some token

theorem nonempty_eq_some {value : Option String} : nonempty value = some token ↔ value = some token ∧ token ≠ "" := by
  rw [nonempty, Option.filter_eq_some_iff, decide_eq_true_iff]

theorem csrfToken_ne_empty (fresh : Token) (request : Request) : csrfToken fresh request ≠ "" := by
  rw [csrfToken]
  cases given : nonempty request.cookie with
  | some cookie => exact (nonempty_eq_some.mp given).2
  | none =>
      intro empty
      have length := fresh.length
      rw [Option.getD_none] at empty
      rw [empty] at length
      exact absurd length (by decide)

theorem csrfToken_of_cookie (fresh : Token) (cookie : request.cookie = some token) (given : token ≠ "") :
    csrfToken fresh request = token := by
  rw [csrfToken, nonempty_eq_some.mpr ⟨cookie, given⟩, Option.getD_some]

theorem compare_reaches {submitted : Option String} {messages : List Message} :
    (∃ received setCookie, self.compare fresh request submitted messages = .reached received setCookie) ↔
      submitted = some (csrfToken fresh request) ∧ isAsciiText (csrfToken fresh request) = true := by
  unfold CSRFMiddleware.compare compareDigest
  constructor
  · rintro ⟨received, setCookie, reached⟩
    split at reached
    · contradiction
    · rename_i given found
      split_ifs at reached with ascii
      · by_cases same : csrfToken fresh request = given
        · exact ⟨same ▸ (nonempty_eq_some.mp found).1, ascii.1⟩
        · rw [decide_eq_false same] at reached
          contradiction
  · rintro ⟨rfl, ascii⟩
    rw [nonempty_eq_some.mpr ⟨rfl, csrfToken_ne_empty fresh request⟩]
    simp only [ascii, and_self, if_true, decide_true]
    exact ⟨_, _, rfl⟩

theorem reaches_iff (guarded : middleware.isExempt request.path = false)
    (changing : request.method ∉ safeMethods) :
    Reaches fresh request ↔
      Submits request (csrfToken fresh request) ∧ isAsciiText (csrfToken fresh request) = true := by
  have outside : ¬ (middleware.isExempt request.path = true ∨ request.method ∈ safeMethods) := by
    rw [guarded]
    exact fun either => either.elim (absurd · Bool.false_ne_true) changing
  rw [Reaches, CSRFMiddleware.call, if_neg outside, Submits]
  split
  · rename_i form
    obtain ⟨absent, urlencoded⟩ := form
    cases read : readBody request.messages with
    | none => simp [absent]
    | some body => simp [compare_reaches, absent, urlencoded]
  · rename_i other
    rw [compare_reaches]
    refine and_congr_left fun _ => ?_
    constructor
    · exact fun given => .inl (nonempty_eq_some.mpr ⟨given, csrfToken_ne_empty fresh request⟩)
    · rintro (given | ⟨absent, urlencoded, -⟩)
      · exact (nonempty_eq_some.mp given).1
      · exact absurd ⟨absent, urlencoded⟩ other

theorem reaches_of_exempt (exempt : middleware.isExempt request.path = true ∨ request.method ∈ safeMethods) :
    Reaches fresh request := by
  rw [Reaches, CSRFMiddleware.call, if_pos exempt]
  exact ⟨_, _, rfl⟩

theorem messages_of_compare {submitted : Option String} {received messages : List Message}
    {setCookie : Option String}
    (reached : self.compare fresh request submitted received = .reached messages setCookie) :
    messages = received := by
  unfold CSRFMiddleware.compare at reached
  split at reached
  · contradiction
  · split at reached
    · cases reached
      rfl
    · contradiction
    · contradiction

/-- What comes behind the middleware reads the same body. -/
theorem readBody_of_reached {messages : List Message} {setCookie : Option String}
    (reached : self.call fresh request = .reached messages setCookie) :
    readBody messages = readBody request.messages := by
  unfold CSRFMiddleware.call at reached
  split_ifs at reached with exempt form
  · cases reached
    rfl
  · split at reached
    · contradiction
    · rename_i body read
      rw [messages_of_compare reached, read]
      rfl
  · rw [messages_of_compare reached]

/-- How the body comes in pieces does not matter. -/
theorem reaches_congr {messages : List Message} (same : readBody messages = readBody request.messages) :
    Reaches fresh { request with messages := messages } ↔ Reaches fresh request := by
  by_cases exempt : middleware.isExempt request.path = true ∨ request.method ∈ safeMethods
  · exact iff_of_true (reaches_of_exempt exempt) (reaches_of_exempt exempt)
  · obtain ⟨guarded, changing⟩ := not_or.mp exempt
    have guarded := Bool.eq_false_iff.mpr guarded
    have cut : Reaches fresh { request with messages := messages } ↔
        Submits { request with messages := messages } (csrfToken fresh request) ∧
          isAsciiText (csrfToken fresh request) = true := reaches_iff guarded changing
    rw [cut, reaches_iff guarded changing, Submits, Submits, same]

/-- A form in its standard encoding brings its token through, whatever the other fields. -/
theorem reaches_of_urlencoded (pairs : List (List Char × List Char))
    (urlencoded : Python.isIn formUrlencoded (request.contentType.getD "") = true)
    (body : readBody request.messages = some (Utf8.encode (QueryString.urlencode pairs)))
    (cookie : request.cookie = some token) (given : token ≠ "") (ascii : isAsciiText token = true)
    (absent : nonempty request.header = none)
    (carried : pairs.lookup "csrf_token".toList = some token.toList) : Reaches fresh request := by
  by_cases exempt : middleware.isExempt request.path = true ∨ request.method ∈ safeMethods
  · exact reaches_of_exempt exempt
  · obtain ⟨guarded, changing⟩ := not_or.mp exempt
    rw [reaches_iff (Bool.eq_false_iff.mpr guarded) changing, csrfToken_of_cookie fresh cookie given]
    refine ⟨.inr ⟨absent, urlencoded, _, body, ?_⟩, ascii⟩
    rw [formToken, Utf8.decode_encode, Option.bind_some, QueryString.parseQsl_urlencode, carried,
      Option.map_some, String.ofList_toList]

/-- Any other encoding of a form is refused, whatever the form carries. -/
theorem not_reaches_of_not_urlencoded (guarded : middleware.isExempt request.path = false)
    (changing : request.method ∉ safeMethods) (absent : nonempty request.header = none)
    (other : Python.isIn formUrlencoded (request.contentType.getD "") = false) :
    ¬ Reaches fresh request := by
  rw [reaches_iff guarded changing, Submits, absent, other]
  simp

end PowerBlockade.Web
