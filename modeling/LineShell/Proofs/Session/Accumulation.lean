import LineShell.Proofs.Files.Holding
import LineShell.Proofs.Session.Redirect

/-! A file that the outputs of lines go to, one after another: it holds all that has been sent to it
since it was begun anew. -/

namespace LineShell

open Text (Bytes)

/-- What a path holds after some bytes are written there, in the place of what it held or behind
it. -/
def Holding.write (held : Holding) (append : Bool) (bytes : Bytes) : Holding :=
  .file (if append then held.bytes ++ bytes else bytes)

namespace Session

section Redirect

variable {t t' : FileTree} {p : Path} {f : Place} {now : Time} {append : Bool} {message : Text}

theorem holding_writeMessage (hsame : t.Same p f) (hregular : t.holding f ≠ .other)
    (h : writeMessage t now p append message = .ok t') :
    t'.holding f = (t.holding f).write append (Text.encode message) := by
  cases append with
  | true =>
    obtain ⟨data, hdata, hheld⟩ := FileTree.holding_changeAt hsame hregular h
    rw [hheld, Holding.write, if_pos rfl, ← hdata]
    split
    case isTrue hempty => rw [List.isEmpty_iff.mp hempty, List.append_nil]
    case isFalse => rfl
  | false =>
    obtain ⟨data, -, hheld⟩ := FileTree.holding_changeAt hsame hregular h
    exact hheld

/-- Bytes are written wherever a file can be opened for them. -/
theorem exists_writeMessage {opened : FileTree × Option Nat}
    (h : t.openForWriting now p = .ok opened) (append : Bool) (message : Text) :
    ∃ t', writeMessage t now p append message = .ok t' := by
  obtain ⟨t', new⟩ := opened
  have hchange (change : FileData → FileData) :
      ∃ t', t.changeAt now p change = .ok t' := by
    rw [FileTree.changeAt, h]
    cases new <;> exact ⟨_, rfl⟩
  cases append <;> exact hchange _

theorem writeMessage_eq_error {e : IoError} (h : t.openForWriting now p = .error e)
    (append : Bool) (message : Text) : writeMessage t now p append message = .error e := by
  cases append <;>
    simp [writeMessage, FileTree.append, FileTree.overwrite, FileTree.changeAt, h]

end Redirect

/-- What is known of a line whose output goes to a file. -/
structure Sent where
  append : Bool
  /-- What the command comes to. -/
  outcome : Outcome
  /-- Whether the file can be opened once the command is done. -/
  opened : Bool
  /-- What the line comes to. -/
  result : Outcome
  /-- The files that the command leaves. -/
  left : FileTree
  /-- The files after the line. -/
  after : FileTree

/-- The bytes of the message, be it that of a success or of a failure. -/
def Sent.payload (x : Sent) : Bytes :=
  Text.encode x.outcome.message

/-- A line sends the output of its command to the file `f`, which the command itself leaves as it
is, in the session `s`; the session is `s'` after it. -/
inductive Sending (f : Place) (s : Session) : Session → Sent → Prop
  | line {host : Program.Host} {around : Surroundings} {text : Text} {i : Line.Invocation}
    {r : Line.Redirection} {target : Text} {mid s' : Session} {o result : Outcome}
    (hparse : Line.parse text = .ok (i, r)) (hout : r.output = some target)
    (hcommand : { s with coloursOverride := some false }.dispatch host around i =
      (mid, .answered o))
    (hkept : mid.tree.holding f = s.tree.holding f)
    (hsame : mid.tree.Same (mid.resolve around target) f)
    (hline : s.execute host around text = (s', .answered result)) :
    Sending f s s' {
      append := r.append
      outcome := o
      opened := (mid.tree.openForWriting around.clock (mid.resolve around target)).isOk
      result
      left := mid.tree
      after := s'.tree }

/-- Lines that send their outputs to the file `f`, one after another. What else is done in between
leaves the file as it is. -/
inductive Sends (f : Place) : Session → List Sent → Session → Prop
  | done (s : Session) : Sends f s [] s
  | send {s s' s'' : Session} {x : Sent} {rest : List Sent} (h : Sending f s s' x)
    (hrest : Sends f s' rest s'') : Sends f s (x :: rest) s''
  | between {s s' s'' : Session} {sent : List Sent}
    (h : s'.tree.holding f = s.tree.holding f) (hrest : Sends f s' sent s'') : Sends f s sent s''

/-- A line whose file can be opened succeeds if its command did. Any other line fails, and writes
nothing. -/
structure Sent.Told (x : Sent) : Prop where
  opened : x.opened = true → x.result.isSuccess = x.outcome.isSuccess
  unopened : x.opened = false → x.result.isSuccess = false ∧ x.after = x.left

/-- What the file holds after a line. -/
def Sent.onto (held : Holding) (x : Sent) : Holding :=
  if x.opened then held.write x.append x.payload else held

section Sends

variable {f : Place} {s s' : Session} {x : Sent} {sent : List Sent}

section Redirect

variable {around : Surroundings} {o : Outcome} {path : Path} {append : Bool}

theorem redirect_of_opened {t : FileTree}
    (h : writeMessage s.tree around.clock path append o.message = .ok t) (command : Text) :
    (s.redirect around command o path append).1.tree = t ∧
      (s.redirect around command o path append).2.isSuccess = o.isSuccess := by
  unfold redirect
  rw [h]
  cases o <;> exact ⟨rfl, rfl⟩

theorem redirect_of_unopened {e : IoError}
    (h : writeMessage s.tree around.clock path append o.message = .error e) (command : Text) :
    s.redirect around command o path append = (s, (LineError.writing path e).outcome) := by
  unfold redirect
  rw [h]

end Redirect

theorem Sending.step (h : Sending f s s' x) (hregular : s.tree.holding f ≠ .other) :
    s'.tree.holding f = x.onto (s.tree.holding f) ∧ x.Told := by
  cases h with
  | @line host around text i r target mid _ o result hparse hout hcommand hkept hsame hline =>
    cases hline.symm.trans (s.execute_of_dispatch host around hparse hout hcommand)
    rw [← hkept] at hregular ⊢
    cases hopen : mid.tree.openForWriting around.clock (mid.resolve around target) with
    | error e =>
      have hunwritten := writeMessage_eq_error hopen r.append o.message
      rw [redirect_of_unopened (s := { mid with coloursOverride := none }) hunwritten]
      exact ⟨rfl, by rintro ⟨⟩, fun _ => ⟨rfl, rfl⟩⟩
    | ok opened =>
      obtain ⟨t, ht⟩ := exists_writeMessage hopen r.append o.message
      obtain ⟨htree, hsuccess⟩ := redirect_of_opened (s := { mid with coloursOverride := none })
        ht i.key
      refine ⟨?_, fun _ => hsuccess, by rintro ⟨⟩⟩
      exact (congrArg (·.holding f) htree).trans (holding_writeMessage hsame hregular ht)

theorem Sent.onto_ne_other {held : Holding} (h : held ≠ .other) (x : Sent) :
    x.onto held ≠ .other := by
  rw [onto]
  split
  case isTrue => rintro ⟨⟩
  case isFalse => exact h

/-- Each line is written onto what the lines before it left. -/
theorem Sends.holding_eq (h : Sends f s sent s') (hregular : s.tree.holding f ≠ .other) :
    s'.tree.holding f = sent.foldl Sent.onto (s.tree.holding f) ∧ ∀ x ∈ sent, x.Told := by
  induction h with
  | done s => exact ⟨rfl, by simp⟩
  | @send s s' s'' x rest h _ ih =>
    obtain ⟨hheld, htold⟩ := h.step hregular
    rw [hheld] at ih
    obtain ⟨hrest, hall⟩ := ih (Sent.onto_ne_other hregular x)
    exact ⟨hrest, List.forall_mem_cons.mpr ⟨htold, hall⟩⟩
  | between h _ ih =>
    rw [h] at ih
    exact ih hregular

/-- The bytes of the messages that are written, one after another. -/
def payloads (sent : List Sent) : Bytes :=
  (sent.filter Sent.opened).flatMap Sent.payload

theorem payloads_cons_of_opened (h : x.opened = true) :
    payloads (x :: sent) = x.payload ++ payloads sent := by
  rw [payloads, List.filter_cons_of_pos h, List.flatMap_cons, payloads]

theorem payloads_cons_of_unopened (h : ¬x.opened = true) :
    payloads (x :: sent) = payloads sent := by
  rw [payloads, List.filter_cons_of_neg h, payloads]

/-- Behind what a file holds comes all that is appended. -/
theorem foldl_onto_file (happend : ∀ x ∈ sent, x.opened = true → x.append = true) (bytes : Bytes) :
    sent.foldl Sent.onto (.file bytes) = .file (bytes ++ payloads sent) := by
  induction sent generalizing bytes with
  | nil => simp [payloads]
  | cons x sent ih =>
    rw [List.forall_mem_cons] at happend
    rw [List.foldl_cons]
    by_cases hopened : x.opened = true
    · have honto : x.onto (.file bytes) = .file (bytes ++ x.payload) := by
        rw [Sent.onto, if_pos hopened, Holding.write, happend.1 hopened]
        rfl
      rw [honto, ih happend.2, payloads_cons_of_opened hopened, List.append_assoc]
    · rw [Sent.onto, if_neg hopened, ih happend.2, payloads_cons_of_unopened hopened]

theorem foldl_onto (happend : ∀ x ∈ sent, x.opened = true → x.append = true) (held : Holding) :
    sent.foldl Sent.onto held =
      if sent.any Sent.opened then .file (held.bytes ++ payloads sent) else held := by
  induction sent with
  | nil => rfl
  | cons x sent ih =>
    rw [List.forall_mem_cons] at happend
    rw [List.foldl_cons, List.any_cons, Sent.onto]
    by_cases hopened : x.opened = true
    · rw [if_pos hopened, Holding.write, happend.1 hopened, foldl_onto_file happend.2,
        payloads_cons_of_opened hopened, hopened]
      simp
    · rw [if_neg hopened, ih happend.2, payloads_cons_of_unopened hopened]
      simp [hopened]

/-- A file that is overwritten holds that message, and behind it all that is appended. -/
theorem foldl_onto_overwritten {before after : List Sent} (hopened : x.opened = true)
    (hoverwrite : x.append = false) (happend : ∀ y ∈ after, y.opened = true → y.append = true)
    (held : Holding) :
    (before ++ x :: after).foldl Sent.onto held = .file (x.payload ++ payloads after) := by
  have honto (held : Holding) : x.onto held = .file x.payload := by
    rw [Sent.onto, if_pos hopened, Holding.write, hoverwrite]
    rfl
  rw [List.foldl_append, List.foldl_cons, honto, foldl_onto_file happend]

/-- A path that holds a regular file or nothing takes the outputs of lines one after another. In the
end it holds the messages of all lines from the last one on that overwrites the file, or else all of
them behind what it held. A line does not count if the file could not be opened for it. -/
theorem Sends.accumulates (h : Sends f s sent s') (hregular : s.tree.holding f ≠ .other) :
    ((∀ x ∈ sent, x.opened = true → x.append = true) →
      s'.tree.holding f =
        if sent.any Sent.opened then .file ((s.tree.holding f).bytes ++ payloads sent)
        else s.tree.holding f) ∧
    (∀ before x after, sent = before ++ x :: after → x.opened = true → x.append = false →
      (∀ y ∈ after, y.opened = true → y.append = true) →
      s'.tree.holding f = .file (x.payload ++ payloads after)) ∧
    ∀ x ∈ sent, x.Told := by
  obtain ⟨hheld, htold⟩ := h.holding_eq hregular
  refine ⟨fun happend => ?_, ?_, htold⟩
  · rw [hheld, foldl_onto happend]
  · rintro before x after rfl hopened hoverwrite happend
    rw [hheld, foldl_onto_overwritten hopened hoverwrite happend]

end Sends

/-- The path of the file in the root directory. -/
def rootFile : Path :=
  ['/', 'f']

/-- `echo a`, which succeeds. -/
def echoed : Line.Invocation :=
  { name := "echo", arguments := [['a']] }

/-- `history x`, which fails. -/
def refused : Line.Invocation :=
  { name := "history", arguments := [['x']] }

theorem dispatch_echoed (s : Session) :
    s.dispatch noPrograms bareSurroundings echoed = (s, .answered (.success ['a'])) := by
  have hecho : Dispatch.ofKey echoed.key = .echo := by decide
  rw [dispatch, hecho]
  rfl

theorem dispatch_refused (s : Session) :
    s.dispatch noPrograms bareSurroundings refused =
      (s, .answered (.failure "history: limit must be a number, got 'x'")) := by
  have hhistory : Dispatch.ofKey refused.key = .history := by decide
  rw [dispatch, hhistory]
  rfl

/-- A line in the root directory that sends what its command comes to to a file that is there. -/
theorem sending_rootFile {s : Session} (hcwd : s.cwd = ['/']) {l : Location} {id : Nat}
    (hfind : s.tree.find true rootFile = .ok (.entry l (.file id)))
    (hwrite : s.tree.grants .write (.file id) = true) {text : Text} {i : Line.Invocation}
    {r : Line.Redirection} (hparse : Line.parse text = .ok (i, r)) (hout : r.output = some ['f'])
    {o : Outcome} (hcommand : ∀ s : Session, s.dispatch noPrograms bareSurroundings i =
      (s, .answered o)) :
    ∃ s' x, Sending rootFile s s' x ∧ x.append = r.append ∧ x.outcome = o ∧ x.opened = true ∧
      s'.cwd = ['/'] ∧ writeMessage s.tree 1 rootFile r.append o.message = .ok s'.tree := by
  have hpath : { s with coloursOverride := some false }.resolve bareSurroundings ['f'] =
      rootFile := by
    rw [resolve, hcwd]
    decide
  have hopen := FileTree.openForWriting_of_find hfind hwrite 1
  obtain ⟨t, ht⟩ := exists_writeMessage hopen r.append o.message
  have hline := s.execute_of_dispatch noPrograms bareSurroundings hparse hout (hcommand _)
  have hsame : s.tree.Same
      ({ s with coloursOverride := some false }.resolve bareSurroundings ['f'] : Path) rootFile :=
    hpath ▸ .refl s.tree rootFile
  refine ⟨_, _, .line hparse hout (hcommand _) rfl hsame hline, rfl, rfl, ?_, ?_, ?_⟩
  · rw [hpath]
    exact congrArg Except.isOk hopen
  · exact (alike_redirect _ bareSurroundings i.key o _ r.append).cwd.trans hcwd
  · rw [hpath]
    have hwritten : writeMessage { s with coloursOverride := none }.tree bareSurroundings.clock
        rootFile r.append o.message = .ok t := ht
    exact ht.trans (congrArg Except.ok (redirect_of_opened hwritten i.key).1.symm)

/-- `echo a > f` and then `history x >> f`: the text and the complaint stand in the file. -/
theorem accumulates_echoed :
    ∃ x y s', Sends rootFile (withOneFile 0o644) [x, y] s' ∧
      (withOneFile 0o644).tree.holding rootFile ≠ .other ∧
      x.opened = true ∧ x.append = false ∧ y.opened = true ∧ y.append = true ∧
      s'.tree.holding rootFile =
        .file (Text.encode "ahistory: limit must be a number, got 'x'") ∧
      x.result.isSuccess = true ∧ y.result.isSuccess = false := by
  have hfind : (withOneFile 0o644).tree.find true rootFile =
      .ok (.entry [Name.ofText ['f']] (.file 0)) := FileTree.single_find 0o644 true
  have hregular : (withOneFile 0o644).tree.holding rootFile ≠ .other := by
    rw [FileTree.holding_of_find hfind rfl]
    rintro ⟨⟩
  have hoverwrite : Line.parse "echo a > f" = .ok (echoed, { output := some ['f'] }) := by decide
  have happend : Line.parse "history x >> f" =
      .ok (refused, { output := some ['f'], append := true }) := by decide
  obtain ⟨s₁, x, hx, hxappend, hxoutcome, hxopened, hcwd, hwritten⟩ :=
    sending_rootFile rfl hfind (by decide) hoverwrite rfl dispatch_echoed
  have htree : (withOneFile 0o644).tree.changeFile 0
      (fun d => { d with bytes := Text.encode ['a'], changed := 1 }) = s₁.tree := by
    refine Except.ok.inj (Eq.trans ?_ hwritten)
    change _ = FileTree.changeAt _ _ _ _
    rw [FileTree.changeAt, FileTree.openForWriting_of_find hfind (by decide)]
    rfl
  have hfind₁ := FileTree.find_changeFile hfind 0
    fun d => { d with bytes := Text.encode ['a'], changed := 1 }
  rw [htree] at hfind₁
  obtain ⟨s₂, y, hy, hyappend, hyoutcome, hyopened, -, -⟩ :=
    sending_rootFile hcwd hfind₁ (htree ▸ by decide) happend rfl dispatch_refused
  have hsends : Sends rootFile (withOneFile 0o644) [x, y] s₂ := .send hx (.send hy (.done s₂))
  obtain ⟨-, hheld, htold⟩ := hsends.accumulates hregular
  refine ⟨x, y, s₂, hsends, hregular, hxopened, hxappend, hyopened, hyappend, ?_, ?_, ?_⟩
  · rw [hheld [] x [y] rfl hxopened hxappend (by simp [hyappend]),
      payloads_cons_of_opened hyopened, Sent.payload, Sent.payload, hxoutcome, hyoutcome]
    decide
  · rw [(htold x (by simp)).opened hxopened, hxoutcome]
    rfl
  · rw [(htold y (by simp)).opened hyopened, hyoutcome]
    rfl

end Session

end LineShell
