import PowerBlockade.Lib.Lists
import PowerBlockade.Lib.Separated
import PowerBlockade.Lib.Substitution

/-!
# Configuration files of the recursor and dnsdist

The entrypoints fill the holes of a template with sed. Values come from the environment; a password
that the guard does not take is replaced by a generated one.
-/

namespace PowerBlockade.Setup
open Lib Lib.Substitution

/-- The replacements of an `s` command. Letters and digits after a backslash mean something else. -/
def sed : Dialect where
  plain c := if c = '\n' ∨ c = '\\' then none else if c = '&' then some .found else some (.char c)
  escaped c := if c.isAlphanum then none else some (.char c)

/-- `[\\|&]` -/
def isMeta (c : Char) : Bool := c = '\\' ∨ c = '|' ∨ c = '&'

/-- `$(…)` -/
def output (text : List Char) : List Char := text.rdropWhile (· = '\n')

inductive Variable
  | recursorApiKey
  | recursorWebPassword
  | recursorIp
  | dnstapProcessorIp
  | dnsdistWebAddress
  | dnsdistWebPassword
  deriving DecidableEq

def Variable.name : Variable → List Char
  | .recursorApiKey => "RECURSOR_API_KEY".toList
  | .recursorWebPassword => "RECURSOR_WEB_PASSWORD".toList
  | .recursorIp => "RECURSOR_IP".toList
  | .dnstapProcessorIp => "DNSTAP_PROCESSOR_IP".toList
  | .dnsdistWebAddress => "DNSDIST_WEB_ADDRESS".toList
  | .dnsdistWebPassword => "DNSDIST_WEB_PASSWORD".toList

def Variable.placeholder (hole : Variable) : List Char := '$' :: '{' :: (hole.name ++ ['}'])

/-- `s<separator>${NAME}<separator>ESCAPED<separator>g`; `none` where sed refuses the command, or reads more than it. -/
def fill (separator : Char) (hole : Variable) (value text : List Char) : Option (List Char) :=
  match sed.read separator (output (escape isMeta value) ++ [separator, 'g']) with
  | some (pieces, ['g']) =>
      some (replaceAll hole.placeholder (pieces.flatMap (Piece.put hole.placeholder)) text)
  | _ => none

/-- `[A-Za-z0-9._~+=@-]` -/
def isSafe (c : Char) : Bool := c.isAlphanum ∨ c ∈ ['.', '_', '~', '+', '=', '@', '-']

/-- `grep -Eq '^[…]+$'` -/
def grep (class' : Char → Bool) (text : List Char) : Bool :=
  (text.splitOn '\n').any fun line => line ≠ [] ∧ line.all class'

/-- `tr -dc 'A-Za-z0-9' < /dev/urandom | head -c 32` -/
structure Generated where
  text : List Char
  length : text.length = 32
  letters : ∀ c ∈ text, c.isAlphanum = true

/-- An unset variable is empty. -/
def webPassword (given : List Char) (generated : Generated) : List Char :=
  if given = [] ∨ grep isSafe given = false then generated.text else given

/-- The commands of one call of sed, in their order. -/
def fillAll (separator : Char) (settings : List (Variable × List Char)) (text : List Char) : Option (List Char) :=
  settings.foldlM (fun text setting => fill separator setting.1 setting.2 text) text

def recursorSettings (apiKey given : List Char) (generated : Generated) : List (Variable × List Char) :=
  [(.recursorApiKey, apiKey), (.recursorWebPassword, webPassword given generated)]

def renderRecursor (template apiKey given : List Char) (generated : Generated) : Option (List Char) :=
  if apiKey = [] then none else fillAll '|' (recursorSettings apiKey given generated) template

structure DnsdistEnvironment where
  recursorIp : List Char
  dnstapProcessorIp : List Char
  /-- `DNSDIST_WEB_ADDRESS`, or the first address that `hostname -i` prints. -/
  webAddress : List Char
  webPassword : List Char
  consoleKey : List Char

def orDefault (value : List Char) (default : String) : List Char := if value = [] then default.toList else value

/-- `^[0-9]+\.[0-9]+\.[0-9]+\.[0-9]+$` -/
def isDotted (line : List Char) : Bool :=
  (line.splitOn '.').length = 4 ∧ (line.splitOn '.').all fun part => part ≠ [] ∧ part.all Char.isDigit

def consoleBlock (key : List Char) : List Char :=
  "\n-- Console (opt-in via DNSDIST_CONSOLE_KEY; localhost-only inside container)\nsetKey(\"".toList ++ key ++
    "\")\ncontrolSocket(\"127.0.0.1:5199\")\n".toList

/-- `[A-Za-z0-9+/=]` -/
def isBase64 (c : Char) : Bool := c.isAlphanum ∨ c ∈ ['+', '/', '=']

def dnsdistSettings (environment : DnsdistEnvironment) (generated : Generated) : List (Variable × List Char) :=
  [(.recursorIp, orDefault environment.recursorIp "172.30.0.10"),
    (.dnstapProcessorIp, orDefault environment.dnstapProcessorIp "172.30.0.20"),
    (.dnsdistWebAddress, environment.webAddress),
    (.dnsdistWebPassword, webPassword environment.webPassword generated)]

/-- The console is for a key of the base64 alphabet. -/
def withConsole (key config : List Char) : Option (List Char) :=
  if key = [] then some config else if key.all isBase64 then some (config ++ consoleBlock key) else none

def renderDnsdist (template : List Char) (environment : DnsdistEnvironment) (generated : Generated) :
    Option (List Char) :=
  if (environment.webAddress.splitOn '\n').any isDotted = false then none
  else (fillAll '/' (dnsdistSettings environment generated) template).bind (withConsole environment.consoleKey)

/-! ## Values -/

theorem output_append_newlines (text : List Char) :
    ∃ newlines, (∀ c ∈ newlines, c = '\n') ∧ text = output text ++ newlines := by
  refine ⟨(text.reverse.takeWhile (· = '\n')).reverse, fun c among => ?_, ?_⟩
  · simpa using List.mem_takeWhile_imp (List.mem_reverse.mp among)
  · rw [output, List.rdropWhile, ← List.reverse_append, List.takeWhile_append_dropWhile, List.reverse_reverse]

theorem output_of_last {text : List Char} (last : ∀ c ∈ text.getLast?, c ≠ '\n') : output text = text :=
  rdropWhile_of_solid fun c among => decide_eq_false (last c among)

theorem output_of_absent {text : List Char} (absent : '\n' ∉ text) : output text = text := by
  refine output_of_last fun c last => ?_
  rintro rfl
  exact absent (List.mem_of_getLast? last)

theorem mem_of_mem_output {text : List Char} {c : Char} (among : c ∈ output text) : c ∈ text := by
  obtain ⟨newlines, -, whole⟩ := output_append_newlines text
  rw [whole]
  exact List.mem_append_left _ among

theorem getLast?_output (text : List Char) : ∀ c ∈ (output text).getLast?, c ≠ '\n' := by
  intro c last
  have nonempty : output text ≠ [] := by
    intro empty
    simp [empty] at last
  rw [List.getLast?_eq_some_getLast nonempty, Option.mem_some_iff] at last
  subst last
  have stays := List.rdropWhile_last_not (· = '\n') text nonempty
  exact fun same => stays (decide_eq_true same)

/-- The shell drops the line ends of the value itself. -/
theorem output_escape {special : Char → Bool} (lineEnd : special '\n' = false) (text : List Char) :
    output (escape special text) = escape special (output text) := by
  obtain ⟨newlines, all, whole⟩ := output_append_newlines text
  have same : escape special newlines = newlines := by
    have plain : ∀ c ∈ newlines, (if special c then ['\\', c] else [c]) = [c] := by
      intro c among
      rw [all c among, if_neg (by simp [lineEnd])]
    rw [escape, List.flatMap_congr plain, List.flatMap_singleton']
  have ends : output (escape special (output text)) = escape special (output text) :=
    output_of_last (by
      rw [getLast?_escape]
      exact getLast?_output text)
  calc output (escape special text)
      = output (escape special (output text) ++ newlines) := by conv_lhs => rw [whole, escape_append, same]
    _ = output (escape special (output text)) := rdropWhile_append_blanks (by simpa using all) _
    _ = escape special (output text) := ends

theorem fits_of_ne {separator c : Char} (solid : c ≠ '\n') (kept : isMeta separator = true ∨ c ≠ separator) :
    Fits sed separator isMeta c := by
  refine ⟨fun special => ?_, fun bare => ?_⟩
  · simp only [isMeta, decide_eq_true_eq] at special
    rcases special with rfl | rfl | rfl <;> rfl
  · have others : c ≠ '\\' ∧ c ≠ '|' ∧ c ≠ '&' := by simpa [isMeta] using bare
    refine ⟨?_, others.1, ?_⟩
    · simp [sed, solid, others.1, others.2.2]
    · rcases kept with special | other
      · rintro rfl
        rw [bare] at special
        cases special
      · exact other

variable {separator : Char} {hole : Variable} {value text filled : List Char}

theorem fill_eq (other : separator ≠ '\\') (kept : isMeta separator = true ∨ separator ∉ output value)
    (oneLine : '\n' ∉ output value) :
    fill separator hole value text = some (replaceAll hole.placeholder (output value) text) := by
  have fits : ∀ c ∈ output value, Fits sed separator isMeta c := by
    intro c among
    refine fits_of_ne (ne_of_mem_of_not_mem among oneLine) ?_
    exact kept.imp_right fun absent => ne_of_mem_of_not_mem among absent
  rw [fill, output_escape rfl, read_escape other fits]
  exact congrArg (fun new => some (replaceAll hole.placeholder new text)) (flatMap_put _ _)

/-- A line feed that is left ends the command early. -/
theorem fill_refused (other : separator ≠ '\n') (kept : isMeta separator = true ∨ separator ∉ output value)
    (lines : '\n' ∈ output value) : fill separator hole value text = none := by
  obtain ⟨before, after, whole, absent⟩ := List.eq_append_cons_of_mem lines
  have fits : ∀ c ∈ before, Fits sed separator isMeta c := by
    intro c among
    refine fits_of_ne (ne_of_mem_of_not_mem among absent) (kept.imp_right fun free => ?_)
    rw [whole] at free
    exact ne_of_mem_of_not_mem (List.mem_append_left _ among) free
  rw [fill, output_escape rfl, whole, read_escape_refused (by decide) (Ne.symm other) rfl rfl fits]

/-! ## Holes -/

theorem Variable.name_injective : Function.Injective Variable.name := by
  intro a b same
  cases a <;> cases b <;> first | rfl | exact absurd same (by decide)

theorem Variable.mark_not_mem (hole : Variable) : '$' ∉ hole.name ∧ '}' ∉ hole.name := by
  cases hole <;> decide

theorem marked_placeholder : Marked '$' Variable.placeholder where
  begins hole := by
    refine ⟨'{' :: (hole.name ++ ['}']), rfl, ?_⟩
    simp [hole.mark_not_mem.1]
  apart hole other different rest := by
    rintro ⟨more, same⟩
    simp only [Variable.placeholder, List.cons_append, List.append_assoc, List.cons.injEq, true_and,
      List.nil_append] at same
    exact different (Variable.name_injective
      (append_cons_inj_left hole.mark_not_mem.2 other.mark_not_mem.2 same).1)

/-! ## Passwords -/

theorem not_safe_lineEnd : isSafe '\n' = false := by decide

theorem mem_splitOn_newlines {kept newlines line : List Char} (absent : '\n' ∉ kept)
    (all : ∀ c ∈ newlines, c = '\n') (cut : line ∈ (kept ++ newlines).splitOn '\n') : line = kept ∨ line = [] := by
  induction newlines generalizing kept with
  | nil =>
      rw [List.append_nil, List.splitOn_eq_singleton absent, List.mem_singleton] at cut
      exact .inl cut
  | cons c newlines ih =>
      obtain rfl := all c List.mem_cons_self
      rw [List.splitOn_append_cons_self_of_not_mem absent, List.mem_cons] at cut
      rcases cut with rfl | later
      · exact .inl rfl
      · have later' : line ∈ ([] ++ newlines).splitOn '\n' := later
        exact .inr ((ih List.not_mem_nil (fun d among => all d (List.mem_cons_of_mem _ among)) later').elim id id)

/-- A value that a guard takes for one of its lines is that line where it is the only one. -/
theorem any_line_output {good : List Char → Bool} (empty : good [] = false) {text : List Char}
    (taken : (text.splitOn '\n').any good = true) (oneLine : '\n' ∉ output text) : good (output text) = true := by
  obtain ⟨line, cut, takes⟩ := List.any_eq_true.mp taken
  obtain ⟨newlines, all, whole⟩ := output_append_newlines text
  rw [whole] at cut
  rcases mem_splitOn_newlines oneLine all cut with rfl | rfl
  · exact takes
  · rw [empty] at takes
    cases takes

theorem grep_output {class' : Char → Bool} {text : List Char} (taken : grep class' text = true)
    (oneLine : '\n' ∉ output text) : output text ≠ [] ∧ ∀ c ∈ output text, class' c = true := by
  have line := any_line_output (by simp) taken oneLine
  rwa [decide_eq_true_eq, List.all_eq_true] at line

theorem mem_of_isDotted {line : List Char} (dotted : isDotted line = true) {c : Char} (among : c ∈ line) :
    c.isDigit = true ∨ c = '.' := by
  rw [isDotted, decide_eq_true_eq, List.all_eq_true] at dotted
  have whole : ['.'].intercalate (line.splitOn '.') = line := List.intercalate_splitOn '.'
  rw [← whole] at among
  refine forall_mem_intercalate (P := fun c => c.isDigit = true ∨ c = '.') (by simp) (fun part cut d inside => ?_) c among
  have digits := dotted.2 part cut
  rw [decide_eq_true_eq, List.all_eq_true] at digits
  exact .inl (digits.2 d inside)

theorem webPassword_safe (given : List Char) (generated : Generated)
    (oneLine : '\n' ∉ output (webPassword given generated)) :
    output (webPassword given generated) ≠ [] ∧ ∀ c ∈ output (webPassword given generated), isSafe c = true := by
  rw [webPassword] at oneLine ⊢
  split
  · have letters : ∀ c ∈ generated.text, isSafe c = true := fun c among => by
      simp [isSafe, generated.letters c among]
    have absent : '\n' ∉ generated.text := fun among => by
      simpa [not_safe_lineEnd] using letters _ among
    rw [output_of_absent absent]
    refine ⟨fun empty => ?_, letters⟩
    have length := generated.length
    simp [empty] at length
  · rename_i taken
    rw [if_neg taken] at oneLine
    rw [not_or, Bool.not_eq_false] at taken
    exact grep_output taken.2 oneLine

/-! ## All the holes -/

/-- Neither ends the command early, nor is taken for a hole. -/
structure Fillable (separator : Char) (value : List Char) : Prop where
  kept : isMeta separator = true ∨ separator ∉ output value
  unmarked : '$' ∉ output value

/-- What stands in the holes, where those of `settings` are filled. -/
def filledWith (value : Variable → List Char) (settings : List (Variable × List Char)) : Variable → List Char :=
  settings.foldl (fun value setting => Function.update value setting.1 (output setting.2)) value

theorem fillAll_render (other : separator ≠ '\\') {settings : List (Variable × List Char)}
    (names : (settings.map (·.1)).Nodup) (fillable : ∀ setting ∈ settings, Fillable separator setting.2)
    (oneLine : ∀ setting ∈ settings, '\n' ∉ output setting.2) {parts : List (Fragment Variable)}
    (unmarked : ∀ part ∈ parts, part.Unmarked '$') {value : Variable → List Char}
    (still : ∀ setting ∈ settings, value setting.1 = setting.1.placeholder)
    (filled : ∀ hole, value hole = hole.placeholder ∨ '$' ∉ value hole) :
    fillAll separator settings (render value parts) = some (render (filledWith value settings) parts) := by
  induction settings generalizing value with
  | nil => rfl
  | cons setting settings ih =>
      obtain ⟨mine, fillable⟩ := List.forall_mem_cons.mp fillable
      obtain ⟨line, oneLine⟩ := List.forall_mem_cons.mp oneLine
      obtain ⟨hole, still⟩ := List.forall_mem_cons.mp still
      obtain ⟨fresh, names⟩ := List.nodup_cons.mp names
      have step : fill separator setting.1 setting.2 (render value parts) =
          some (render (Function.update value setting.1 (output setting.2)) parts) := by
        rw [fill_eq other mine.kept line, replaceAll_render marked_placeholder hole unmarked filled]
      rw [fillAll, List.foldlM_cons, step]
      refine ih names fillable oneLine (fun later among => ?_) fun next => ?_
      · have different : later.1 ≠ setting.1 := fun same => fresh (List.mem_map.mpr ⟨later, among, same⟩)
        rw [Function.update_of_ne different]
        exact still later among
      · by_cases same : next = setting.1
        · subst same
          rw [Function.update_self]
          exact .inr mine.unmarked
        · rw [Function.update_of_ne same]
          exact filled next

theorem fillAll_refused (other : separator ≠ '\\') (notLine : separator ≠ '\n')
    {settings : List (Variable × List Char)}
    (kept : ∀ setting ∈ settings, isMeta separator = true ∨ separator ∉ output setting.2)
    (lines : ∃ setting ∈ settings, '\n' ∈ output setting.2) : fillAll separator settings text = none := by
  induction settings generalizing text with
  | nil => simp at lines
  | cons setting settings ih =>
      obtain ⟨mine, kept⟩ := List.forall_mem_cons.mp kept
      rw [fillAll, List.foldlM_cons]
      by_cases line : '\n' ∈ output setting.2
      · rw [fill_refused notLine mine line]
        rfl
      · rw [fill_eq other mine line]
        refine ih kept ?_
        obtain ⟨bad, among, lines⟩ := lines
        rcases List.mem_cons.mp among with rfl | later
        · exact absurd lines line
        · exact ⟨bad, later, lines⟩

/-- The commands neither bring nor take lines. -/
theorem count_fillAll (other : separator ≠ '\\') (notLine : separator ≠ '\n')
    {settings : List (Variable × List Char)}
    (kept : ∀ setting ∈ settings, isMeta separator = true ∨ separator ∉ output setting.2)
    (done : fillAll separator settings text = some filled) : filled.count '\n' = text.count '\n' := by
  induction settings generalizing text with
  | nil => rw [Option.some.inj done]
  | cons setting settings ih =>
      obtain ⟨mine, kept⟩ := List.forall_mem_cons.mp kept
      rw [fillAll, List.foldlM_cons] at done
      by_cases line : '\n' ∈ output setting.2
      · rw [fill_refused notLine mine line] at done
        cases done
      · rw [fill_eq other mine line] at done
        have solid : '\n' ∉ setting.1.placeholder := by cases setting.1 <;> decide
        rw [ih kept done]
        exact count_replaceAll (List.cons_ne_nil _ _) solid line text

theorem mark_not_safe : isSafe '$' = false := by decide

theorem webPassword_fillable {separator : Char} {given : List Char} {generated : Generated}
    (unsafe' : isSafe separator = false) (oneLine : '\n' ∉ output (webPassword given generated)) :
    Fillable separator (webPassword given generated) := by
  obtain ⟨-, safe⟩ := webPassword_safe given generated oneLine
  exact ⟨.inr fun among => by simpa [unsafe'] using safe _ among, fun among => by
    simpa [mark_not_safe] using safe _ among⟩

theorem not_mem_orDefault {c : Char} {value : List Char} {default : String} (absent : c ∉ value)
    (absentDefault : c ∉ default.toList) : c ∉ orDefault value default := by
  rw [orDefault]
  split
  · exact absentDefault
  · exact absent

/-! ## The two files -/

/-- The recursor's file is the template with the key and the password in its holes, or the container
does not start. Whatever the values are, the file has the lines of the template, and its password is
not empty and of the alphabet that the guard asks for. -/
theorem renderRecursor_eq (template apiKey given : List Char) (generated : Generated) :
    (∀ config ∈ renderRecursor template apiKey given generated,
        config.count '\n' = template.count '\n' ∧ output (webPassword given generated) ≠ [] ∧
          ∀ c ∈ output (webPassword given generated), isSafe c = true) ∧
      ∀ parts : List (Fragment Variable), (∀ part ∈ parts, part.Unmarked '$') →
        template = render Variable.placeholder parts → '$' ∉ apiKey →
        renderRecursor template apiKey given generated =
          if apiKey = [] ∨ '\n' ∈ output apiKey ∨ '\n' ∈ output (webPassword given generated) then none
          else some (render (filledWith Variable.placeholder (recursorSettings apiKey given generated)) parts) := by
  have kept : ∀ setting ∈ recursorSettings apiKey given generated,
      isMeta '|' = true ∨ '|' ∉ output setting.2 := fun _ _ => .inl rfl
  have refused : '\n' ∈ output apiKey ∨ '\n' ∈ output (webPassword given generated) →
      renderRecursor template apiKey given generated = none := by
    intro lines
    rw [renderRecursor, fillAll_refused (by decide) (by decide) kept, ite_self]
    rcases lines with key | password
    · exact ⟨_, List.mem_cons_self, key⟩
    · exact ⟨_, List.mem_cons_of_mem _ List.mem_cons_self, password⟩
  constructor
  · intro config made
    have oneLine : '\n' ∉ output (webPassword given generated) := by
      intro lines
      rw [refused (.inr lines)] at made
      cases made
    rw [renderRecursor] at made
    split at made
    · cases made
    · exact ⟨count_fillAll (by decide) (by decide) kept made, webPassword_safe given generated oneLine⟩
  · intro parts unmarked shape unmarkedKey
    split
    · rename_i bad
      rcases bad with empty | lines
      · rw [renderRecursor, if_pos empty]
      · exact refused lines
    · rename_i good
      rw [not_or, not_or] at good
      obtain ⟨nonempty, keyLine, passwordLine⟩ := good
      rw [renderRecursor, if_neg nonempty, shape]
      have names : ((recursorSettings apiKey given generated).map (·.1)).Nodup :=
        (by decide : [Variable.recursorApiKey, .recursorWebPassword].Nodup)
      refine fillAll_render (by decide) names ?_ ?_ unmarked ?_ fun hole => .inl rfl
      · simp only [recursorSettings, List.forall_mem_cons]
        refine ⟨⟨.inl rfl, fun among => unmarkedKey (mem_of_mem_output among)⟩,
          webPassword_fillable (by decide) passwordLine, by simp⟩
      · simp only [recursorSettings, List.forall_mem_cons]
        exact ⟨keyLine, passwordLine, by simp⟩
      · exact fun setting _ => rfl

def someLetters : Generated where
  text := List.replicate 32 'a'
  length := List.length_replicate
  letters c among := by rw [List.eq_of_mem_replicate among]; decide

/-- The last settings of `recursor.conf.template`. -/
def recursorLines : List (Fragment Variable) :=
  [.text "webserver-password=".toList, .hole .recursorWebPassword, .text "\napi-key=".toList, .hole .recursorApiKey,
    .text "\n".toList]

theorem renderRecursor_eq_lines :
    renderRecursor (render Variable.placeholder recursorLines) "a|b&c".toList "p=w".toList someLetters =
      some "webserver-password=p=w\napi-key=a|b&c\n".toList := by
  have unmarked : ∀ part ∈ recursorLines, part.Unmarked '$' := by decide
  rw [(renderRecursor_eq _ _ _ _).2 recursorLines unmarked rfl (by decide)]
  decide

/-- The same of dnsdist's file, whose commands end at a slash. -/
theorem renderDnsdist_eq {environment : DnsdistEnvironment} {generated : Generated}
    (noSlash : ∀ setting ∈ dnsdistSettings environment generated, '/' ∉ output setting.2)
    (noMark : '$' ∉ environment.recursorIp ∧ '$' ∉ environment.dnstapProcessorIp) {parts : List (Fragment Variable)}
    (unmarked : ∀ part ∈ parts, part.Unmarked '$') :
    renderDnsdist (render Variable.placeholder parts) environment generated =
      if (environment.webAddress.splitOn '\n').any isDotted = false ∨
          (∃ setting ∈ dnsdistSettings environment generated, '\n' ∈ output setting.2) then none
      else withConsole environment.consoleKey
        (render (filledWith Variable.placeholder (dnsdistSettings environment generated)) parts) := by
  have kept : ∀ setting ∈ dnsdistSettings environment generated,
      isMeta '/' = true ∨ '/' ∉ output setting.2 := fun setting among => .inr (noSlash setting among)
  rw [renderDnsdist]
  by_cases dotted : (environment.webAddress.splitOn '\n').any isDotted = false
  · rw [if_pos dotted, if_pos (.inl dotted)]
  · rw [if_neg dotted]
    by_cases lines : ∃ setting ∈ dnsdistSettings environment generated, '\n' ∈ output setting.2
    · rw [if_pos (.inr lines), fillAll_refused (by decide) (by decide) kept lines]
      rfl
    · have oneLine : ∀ setting ∈ dnsdistSettings environment generated, '\n' ∉ output setting.2 :=
        fun setting among line => lines ⟨setting, among, line⟩
      have names : ((dnsdistSettings environment generated).map (·.1)).Nodup :=
        (by decide : [Variable.recursorIp, .dnstapProcessorIp, .dnsdistWebAddress, .dnsdistWebPassword].Nodup)
      have free : ∀ setting ∈ dnsdistSettings environment generated, '$' ∉ output setting.2 := by
        simp only [dnsdistSettings, List.forall_mem_cons] at oneLine ⊢
        refine ⟨?_, ?_, ?_, ?_, by simp⟩
        · exact fun among => not_mem_orDefault noMark.1 (by decide) (mem_of_mem_output among)
        · exact fun among => not_mem_orDefault noMark.2 (by decide) (mem_of_mem_output among)
        · intro among
          have address := any_line_output (by decide) (Bool.not_eq_false _ ▸ dotted) oneLine.2.2.1
          rcases mem_of_isDotted address among with digit | dot
          · simp at digit
          · simp at dot
        · have password : Fillable '/' (webPassword environment.webPassword generated) :=
            webPassword_fillable (by decide) oneLine.2.2.2.1
          exact password.unmarked
      rw [if_neg (not_or.mpr ⟨dotted, lines⟩), fillAll_render (by decide) names
        (fun setting among => ⟨kept setting among, free setting among⟩) oneLine unmarked (fun _ _ => rfl)
        fun hole => .inl rfl]
      rfl

def dnsdistLines : List (Fragment Variable) :=
  [.text "address='".toList, .hole .recursorIp, .text ":5300'\npassword='".toList, .hole .dnsdistWebPassword,
    .text "'\n".toList]

/-- A password with a quote is not taken. -/
def quoted : DnsdistEnvironment where
  recursorIp := []
  dnstapProcessorIp := []
  webAddress := "172.30.0.5".toList
  webPassword := "it's".toList
  consoleKey := []

theorem renderDnsdist_eq_quoted : renderDnsdist (render Variable.placeholder dnsdistLines) quoted someLetters =
    some ("address='172.30.0.10:5300'\npassword='".toList ++ List.replicate 32 'a' ++ "'\n".toList) := by
  have noSlash : ∀ setting ∈ dnsdistSettings quoted someLetters, '/' ∉ output setting.2 := by
    simp only [dnsdistSettings, List.forall_mem_cons]
    decide
  have unmarked : ∀ part ∈ dnsdistLines, part.Unmarked '$' := by decide
  rw [renderDnsdist_eq noSlash (by decide) unmarked]
  decide

end PowerBlockade.Setup
