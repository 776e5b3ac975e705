import PowerBlockade.Lib.Lists
import PowerBlockade.Lib.Utf8
import PowerBlockade.Zones.LoadFile

/-!
# The prober

The prober asks the DNS edge every name of its corpus, pass after pass. A query is sent once,
whatever becomes of it; a socket that failed is dropped.
-/

namespace PowerBlockade.Probing
open Lib

/-! ## The corpus -/

/-- What `bufio.Scanner` was given for one line. -/
def maxLine : Nat := 1024 * 1024

/-- A name, or nothing for a blank line and a comment; `none` is an error. -/
def corpusLine (raw : List Char) : Option (Option (List Char)) :=
  let line := trim Zones.isSpace raw
  if maxLine ≤ (Utf8.encode raw).length then none
  else if line = [] ∨ ['#'] <+: line then some none
  else match fields Zones.isSpace line with
    | [] => some none
    | [name] => some (some name)
    | [name, _] => some (some name)
    | _ => none

def load (text : List Char) : Option (List (List Char)) := do
  let names ← (text.splitOn '\n').mapM corpusLine
  if names.filterMap id = [] then none else some (names.filterMap id)

/-- A name and the number of its type. -/
abbrev Question := List Char × Nat

/-- What the prober starts with. -/
structure Plan where
  corpus : List Char
  queries : List (List Char)
  loaded : load corpus = some queries
  qtypes : List Nat
  some_qtype : qtypes ≠ []

/-- The queries of a pass. -/
def Plan.questions (plan : Plan) : List Question := plan.queries.flatMap fun name => plan.qtypes.map (name, ·)

/-! ## One query -/

structure Metrics where
  queriesSent : Nat
  queriesAnswered : Nat
  queriesRefused : Nat
  queriesTimedOut : Nat
  queriesErrored : Nat
  /-- The samples of the histogram, in nanoseconds. -/
  queryLatency : List Nat
  passQueries : Nat

/-- A query on a socket. -/
structure Message where
  socket : Nat
  question : Question
  failed : Bool

structure Prober where
  /-- The socket, by the number of those dialled before it. -/
  conn : Option Nat
  dialled : Nat
  metrics : Metrics
  /-- What was written to the sockets. -/
  wire : List Message

/-- What becomes of a query. An error is given by its `Timeout()`. -/
structure Attempt where
  dial : Except Bool Unit
  exchange : Except Bool Nat
  latency : Nat
  cancelled : Bool

/-- `dns.RcodeRefused` -/
def rcodeRefused : Nat := 5

def Prober.dial (prober : Prober) (attempt : Attempt) : Except Bool (Nat × Prober) :=
  match prober.conn with
  | some socket => .ok (socket, prober)
  | none =>
      match attempt.dial with
      | .error timeout => .error timeout
      | .ok () => .ok (prober.dialled, { prober with conn := some prober.dialled, dialled := prober.dialled + 1 })

def Prober.exchange (prober : Prober) (question : Question) (attempt : Attempt) : Prober × Except Bool Nat :=
  match prober.dial attempt with
  | .error timeout => (prober, .error timeout)
  | .ok (socket, prober) =>
      match attempt.exchange with
      | .error timeout =>
          ({ prober with conn := none, wire := prober.wire ++ [⟨socket, question, true⟩] }, .error timeout)
      | .ok rcode => ({ prober with wire := prober.wire ++ [⟨socket, question, false⟩] }, .ok rcode)

def Metrics.count (metrics : Metrics) (response : Except Bool Nat) (latency : Nat) : Metrics :=
  let metrics := { metrics with queriesSent := metrics.queriesSent + 1 }
  match response with
  | .error true => { metrics with queriesTimedOut := metrics.queriesTimedOut + 1 }
  | .error false => { metrics with queriesErrored := metrics.queriesErrored + 1 }
  | .ok rcode =>
      let metrics :=
        { metrics with
          queriesAnswered := metrics.queriesAnswered + 1
          queryLatency := metrics.queryLatency ++ [latency] }
      if rcode = rcodeRefused then { metrics with queriesRefused := metrics.queriesRefused + 1 } else metrics

def Prober.query (prober : Prober) (question : Question) (attempt : Attempt) : Prober :=
  let (prober, response) := prober.exchange question attempt
  { prober with metrics := prober.metrics.count response attempt.latency }

def Prober.observePass (prober : Prober) (queries : Nat) : Prober :=
  { prober with metrics := { prober.metrics with passQueries := queries } }

/-! ## The passes -/

structure State where
  prober : Prober
  remaining : List Question
  sent : Nat
  stopped : Bool
  /-- The queries so far, and the passes that were completed. -/
  asked : List Question
  passes : Nat

def start (plan : Plan) : State where
  prober := ⟨none, 0, ⟨0, 0, 0, 0, 0, [], 0⟩, []⟩
  remaining := plan.questions
  sent := 0
  stopped := false
  asked := []
  passes := 0

inductive Label
  | query (attempt : Attempt)
  /-- The context is cancelled while the prober sleeps. -/
  | cancel

/-- `runPasses`, from one query to the next. -/
def step (plan : Plan) (state : State) : Label → State
  | .cancel => if state.sent = 0 ∧ 0 < state.passes then { state with stopped := true } else state
  | .query attempt =>
      match state.stopped, state.remaining with
      | false, question :: rest =>
          let prober := state.prober.query question attempt
          let asked := state.asked ++ [question]
          if attempt.cancelled then
            { state with prober, asked, remaining := rest, sent := state.sent + 1, stopped := true }
          else if rest = [] then
            { prober := prober.observePass (state.sent + 1)
              remaining := plan.questions
              sent := 0
              stopped := false
              asked
              passes := state.passes + 1 }
          else { state with prober, asked, remaining := rest, sent := state.sent + 1 }
      | _, _ => state

def run (plan : Plan) (labels : List Label) : State := labels.foldl (step plan) (start plan)

/-! ## The counters -/

structure Metrics.Counted (metrics : Metrics) (asked answered : Nat) : Prop where
  sent : metrics.queriesSent = asked
  accounted : metrics.queriesSent = metrics.queriesAnswered + metrics.queriesTimedOut + metrics.queriesErrored
  answered : metrics.queriesAnswered = answered
  sampled : metrics.queryLatency.length = metrics.queriesAnswered
  refused : metrics.queriesRefused ≤ metrics.queriesAnswered

theorem Metrics.Counted.error {metrics : Metrics} {asked answered : Nat} (counted : metrics.Counted asked answered)
    (timeout : Bool) (latency : Nat) : (metrics.count (.error timeout) latency).Counted (asked + 1) answered := by
  obtain ⟨sent, accounted, answers, sampled, refused⟩ := counted
  cases timeout with
  | true => exact ⟨congrArg (· + 1) sent, by simp only [count]; omega, answers, sampled, refused⟩
  | false => exact ⟨congrArg (· + 1) sent, by simp only [count]; omega, answers, sampled, refused⟩

theorem Metrics.Counted.response {metrics : Metrics} {asked answered : Nat}
    (counted : metrics.Counted asked answered) (rcode latency : Nat) :
    (metrics.count (.ok rcode) latency).Counted (asked + 1) (answered + 1) := by
  obtain ⟨sent, accounted, answers, sampled, refused⟩ := counted
  have accountedMore : metrics.queriesSent + 1 =
      metrics.queriesAnswered + 1 + metrics.queriesTimedOut + metrics.queriesErrored := by omega
  have sampledMore : (metrics.queryLatency ++ [latency]).length = metrics.queriesAnswered + 1 := by
    rw [List.length_append, List.length_singleton, sampled]
  by_cases refuses : rcode = rcodeRefused
  · simp only [count, if_pos refuses]
    exact ⟨congrArg (· + 1) sent, accountedMore, congrArg (· + 1) answers, sampledMore, Nat.succ_le_succ refused⟩
  · simp only [count, if_neg refuses]
    exact ⟨congrArg (· + 1) sent, accountedMore, congrArg (· + 1) answers, sampledMore, Nat.le_succ_of_le refused⟩

/-! ## The socket -/

/-- The socket of the next message, and how many were dialled by then. -/
inductive Opened (prober : Prober) : Nat → Nat → Prop
  | kept (socket : Nat) (there : prober.conn = some socket) : Opened prober socket prober.dialled
  | dialled (absent : prober.conn = none) : Opened prober prober.dialled (prober.dialled + 1)

inductive Exchanged (prober : Prober) (question : Question) : Prober × Except Bool Nat → Prop
  | unsent (timeout : Bool) : Exchanged prober question (prober, .error timeout)
  | failed (socket dialled : Nat) (opened : Opened prober socket dialled) (timeout : Bool) :
      Exchanged prober question
        (⟨none, dialled, prober.metrics, prober.wire ++ [⟨socket, question, true⟩]⟩, .error timeout)
  | answered (socket dialled : Nat) (opened : Opened prober socket dialled) (rcode : Nat) :
      Exchanged prober question
        (⟨some socket, dialled, prober.metrics, prober.wire ++ [⟨socket, question, false⟩]⟩, .ok rcode)

theorem exchange_cases (prober : Prober) (question : Question) (attempt : Attempt) :
    Exchanged prober question (prober.exchange question attempt) := by
  rw [Prober.exchange, Prober.dial]
  cases there : prober.conn with
  | some socket =>
      cases attempt.exchange with
      | error timeout => exact .failed socket prober.dialled (.kept socket there) timeout
      | ok rcode =>
          have answered : Exchanged prober question
              (⟨some socket, prober.dialled, prober.metrics, prober.wire ++ [⟨socket, question, false⟩]⟩, .ok rcode) :=
            .answered socket prober.dialled (.kept socket there) rcode
          rw [← there] at answered
          exact answered
  | none =>
      cases attempt.dial with
      | error timeout => exact .unsent timeout
      | ok _ =>
          cases attempt.exchange with
          | error timeout => exact .failed _ _ (.dialled there) timeout
          | ok rcode => exact .answered _ _ (.dialled there) rcode

/-- The prober after the queries `asked`. -/
structure Prober.Sound (prober : Prober) (asked : List Question) : Prop where
  counted : prober.metrics.Counted asked.length (prober.wire.countP (!·.failed))
  once : (prober.wire.map Message.question).Sublist asked
  dropped : prober.wire.Pairwise fun earlier later =>
    earlier.socket ≤ later.socket ∧ (earlier.failed = true → earlier.socket < later.socket)
  below : ∀ message ∈ prober.wire, message.socket < prober.dialled
  current : ∀ socket ∈ prober.conn, socket + 1 = prober.dialled ∧
    ∀ message ∈ prober.wire, message.failed = true → message.socket < socket

variable {prober : Prober} {asked : List Question} {question : Question}

theorem Opened.spec {socket dialled : Nat} (opened : Opened prober socket dialled) (sound : prober.Sound asked) :
    socket + 1 = dialled ∧ ∀ message ∈ prober.wire,
      message.socket ≤ socket ∧ (message.failed = true → message.socket < socket) := by
  cases opened with
  | kept socket there =>
      obtain ⟨last, fresh⟩ := sound.current socket there
      refine ⟨last, fun message among => ⟨?_, fresh message among⟩⟩
      have below := sound.below message among
      omega
  | dialled absent =>
      exact ⟨rfl, fun message among => ⟨Nat.le_of_lt (sound.below message among), fun _ => sound.below message among⟩⟩

theorem dropped_append {socket dialled : Nat} (opened : Opened prober socket dialled) (sound : prober.Sound asked)
    (failed : Bool) : (prober.wire ++ [Message.mk socket question failed]).Pairwise fun earlier later =>
      earlier.socket ≤ later.socket ∧ (earlier.failed = true → earlier.socket < later.socket) := by
  refine List.pairwise_append.mpr ⟨sound.dropped, List.pairwise_singleton _ _, fun earlier among later last => ?_⟩
  rw [List.mem_singleton.mp last]
  exact (opened.spec sound).2 earlier among

theorem below_append {socket dialled : Nat} (opened : Opened prober socket dialled) (sound : prober.Sound asked)
    (failed : Bool) : ∀ message ∈ prober.wire ++ [Message.mk socket question failed], message.socket < dialled := by
  obtain ⟨last, before⟩ := opened.spec sound
  intro message among
  rcases List.mem_append.mp among with old | new
  · have old := (before message old).1
    omega
  · rw [List.mem_singleton.mp new]
    exact Nat.lt_of_succ_le (Nat.le_of_eq last)

theorem Prober.Sound.query (sound : prober.Sound asked) (question : Question) (attempt : Attempt) :
    (prober.query question attempt).Sound (asked ++ [question]) := by
  have exchanged := exchange_cases prober question attempt
  rw [Prober.query]
  generalize prober.exchange question attempt = outcome at exchanged
  have more : (asked ++ [question]).length = asked.length + 1 := List.length_append
  have sends : ((prober.wire.map Message.question) ++ [question]).Sublist (asked ++ [question]) :=
    sound.once.append_right [question]
  cases exchanged with
  | unsent timeout =>
      refine ⟨?_, sound.once.trans (List.sublist_append_left _ _), sound.dropped, sound.below, sound.current⟩
      rw [more]
      exact sound.counted.error timeout attempt.latency
  | failed socket dialled opened timeout =>
      refine ⟨?_, ?_, dropped_append opened sound true, below_append opened sound true, fun _ none => by cases none⟩
      · rw [more, List.countP_append]
        exact sound.counted.error timeout attempt.latency
      · rw [List.map_append]
        exact sends
  | answered socket dialled opened rcode =>
      refine ⟨?_, ?_, dropped_append opened sound false, below_append opened sound false, ?_⟩
      · rw [more, List.countP_append]
        exact sound.counted.response rcode attempt.latency
      · rw [List.map_append]
        exact sends
      · intro other is
        obtain rfl := Option.some.inj is
        refine ⟨(opened.spec sound).1, fun message among failed => ?_⟩
        rcases List.mem_append.mp among with old | new
        · exact ((opened.spec sound).2 message old).2 failed
        · rw [List.mem_singleton.mp new] at failed
          cases failed

/-! ## Runs -/

theorem load_eq_some {corpus : List Char} {queries : List (List Char)} (loaded : load corpus = some queries) :
    queries ≠ [] ∧ ∃ names, (corpus.splitOn '\n').mapM corpusLine = some names ∧ names.filterMap id = queries := by
  rw [load] at loaded
  obtain ⟨names, looped, nonempty⟩ := Option.bind_eq_some_iff.mp loaded
  rw [Option.ite_none_left_eq_some, Option.some.injEq] at nonempty
  obtain ⟨nonempty, same⟩ := nonempty
  exact ⟨same ▸ nonempty, names, looped, same⟩

/-- Every line of the corpus was read, and those with a name are the queries, in their order. -/
theorem Plan.queries_eq (plan : Plan) :
    (∀ raw ∈ plan.corpus.splitOn '\n', ∃ name, corpusLine raw = some name) ∧
      plan.queries = (plan.corpus.splitOn '\n').filterMap fun raw => (corpusLine raw).join := by
  obtain ⟨-, names, looped, same⟩ := load_eq_some plan.loaded
  refine ⟨fun raw among => ?_, ?_⟩
  · obtain ⟨name, -, read⟩ := exists_of_mapM looped among
    exact ⟨name, read⟩
  · rw [← same]
    refine filterMap_of_mapM (fun raw name read => ?_) looped
    rw [read]
    rfl

example : load "# top\n\nexample.org\nexample.com AAAA\n".toList = some ["example.org".toList, "example.com".toList] := by
  decide +kernel

theorem Plan.questions_ne_nil (plan : Plan) : plan.questions ≠ [] := by
  obtain ⟨name, rest, is⟩ := List.exists_cons_of_ne_nil (load_eq_some plan.loaded).1
  obtain ⟨qtype, qtypes, types⟩ := List.exists_cons_of_ne_nil plan.some_qtype
  rw [Plan.questions, is, types]
  exact List.cons_ne_nil _ _

/-- The prober between two queries: it has asked the whole plan in order for each pass, and the first
`sent` queries of it in this one. -/
structure Sound (plan : Plan) (state : State) : Prop where
  asked : state.asked = (List.replicate state.passes plan.questions).flatten ++ plan.questions.take state.sent
  remaining : state.remaining = plan.questions.drop state.sent
  running : state.stopped = false → state.remaining ≠ []
  prober : state.prober.Sound state.asked
  gauge : state.prober.metrics.passQueries = if state.passes = 0 then 0 else plan.questions.length

theorem count_passQueries (metrics : Metrics) (response : Except Bool Nat) (latency : Nat) :
    (metrics.count response latency).passQueries = metrics.passQueries := by
  cases response with
  | error timeout => cases timeout <;> rfl
  | ok rcode =>
      simp only [Metrics.count]
      split <;> rfl

theorem passQueries_query (prober : Prober) (question : Question) (attempt : Attempt) :
    (prober.query question attempt).metrics.passQueries = prober.metrics.passQueries := by
  have exchanged := exchange_cases prober question attempt
  rw [Prober.query]
  generalize prober.exchange question attempt = outcome at exchanged
  cases exchanged with
  | unsent timeout => exact count_passQueries _ _ _
  | failed socket dialled opened timeout => exact count_passQueries _ _ _
  | answered socket dialled opened rcode => exact count_passQueries _ _ _

theorem Prober.Sound.observePass (sound : prober.Sound asked) (queries : Nat) :
    (prober.observePass queries).Sound asked where
  counted := ⟨sound.counted.sent, sound.counted.accounted, sound.counted.answered, sound.counted.sampled,
    sound.counted.refused⟩
  once := sound.once
  dropped := sound.dropped
  below := sound.below
  current := sound.current

theorem sound_start (plan : Plan) : Sound plan (start plan) where
  asked := rfl
  remaining := rfl
  running _ := plan.questions_ne_nil
  prober := ⟨⟨rfl, rfl, rfl, rfl, Nat.le_refl 0⟩, List.Sublist.refl _, List.Pairwise.nil,
    List.forall_mem_nil _, fun _ none => by cases none⟩
  gauge := rfl

variable {plan : Plan} {state : State}

theorem drop_next {α : Type*} {items rest : List α} {first : α} {n : Nat} (here : items.drop n = first :: rest) :
    items.drop (n + 1) = rest ∧ items.take (n + 1) = items.take n ++ [first] := by
  constructor
  · rw [← List.tail_drop, here, List.tail_cons]
  · rw [List.take_add_one, ← List.head?_drop, here, List.head?_cons, Option.toList_some]

theorem length_of_drop {α : Type*} {items : List α} {last : α} {n : Nat} (here : items.drop n = [last]) :
    n + 1 = items.length := by
  have one := congrArg List.length here
  rw [List.length_drop, List.length_singleton] at one
  omega

theorem Sound.next (sound : Sound plan state) (label : Label) : Sound plan (step plan state label) := by
  cases label with
  | cancel =>
      rw [step]
      split
      · exact { sound with running := fun stays => by cases stays }
      · exact sound
  | query attempt =>
      cases stopped : state.stopped with
      | true =>
          simp only [step, stopped]
          exact sound
      | false =>
          obtain ⟨question, rest, is⟩ := List.exists_cons_of_ne_nil (sound.running stopped)
          have here : plan.questions.drop state.sent = question :: rest := sound.remaining.symm.trans is
          obtain ⟨later, taken⟩ := drop_next here
          have asked : state.asked ++ [question] =
              (List.replicate state.passes plan.questions).flatten ++ plan.questions.take (state.sent + 1) := by
            rw [taken, sound.asked, List.append_assoc]
          have prober := sound.prober.query question attempt
          have gauge := (passQueries_query state.prober question attempt).trans sound.gauge
          simp only [step, stopped, is]
          split
          · exact ⟨asked, later.symm, fun stays => (by cases stays), prober, gauge⟩
          · split
            · rename_i last
              have length : state.sent + 1 = plan.questions.length := length_of_drop (last ▸ here)
              refine ⟨?_, rfl, fun _ => plan.questions_ne_nil, prober.observePass _, ?_⟩
              · rw [asked, length, List.take_length, List.replicate_succ', List.flatten_append, List.flatten_singleton,
                  List.take_zero, List.append_nil]
              · rw [if_neg (Nat.succ_ne_zero _)]
                exact length
            · rename_i more
              exact ⟨asked, later.symm, fun _ => more, prober, gauge⟩

end PowerBlockade.Probing
