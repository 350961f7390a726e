import Mathlib
import LuaBytecode.Command.Basic
import LuaBytecode.Proofs.Layout
import LuaBytecode.Proofs.Listed
import LuaBytecode.Proofs.Schedules

/-!
What is shown of several files: the files up to the first that fails, one after another as each of them is
shown by itself, and then the failure of that one. The order in which the files were decoded does not
matter.
-/

namespace LuaBytecode

namespace WriteM

structure Appends (w : WriteM Unit) (text : Bytes) : Prop where
  exists_sink : ∀ sink : Sink, sink.left = none
    → ∃ sink', w sink = .ok () sink' ∧ sink'.left = none ∧ sink'.text = sink.text ++ text

theorem pure_appends : Appends (pure ()) [] := by
  constructor
  intro sink hleft
  exact ⟨sink, rfl, hleft, (List.append_nil _).symm⟩

theorem write_appends (piece : Bytes) : Appends (write piece) piece := by
  constructor
  intro sink hleft
  refine ⟨{ sink with kept := piece :: sink.kept }, ?_, hleft, ?_⟩
  . rw [write, hleft]
  . simp [Sink.text]

theorem Appends.bind {w : WriteM Unit} {f : Unit → WriteM Unit} {text text' : Bytes}
    (first : Appends w text) (rest : Appends (f ()) text') : Appends (w >>= f) (text ++ text') := by
  constructor
  intro sink hleft
  obtain ⟨sink₁, hw, hleft₁, htext₁⟩ := first.exists_sink sink hleft
  obtain ⟨sink₂, hf, hleft₂, htext₂⟩ := rest.exists_sink sink₁ hleft₁
  refine ⟨sink₂, ?_, hleft₂, ?_⟩
  . simp only [Bind.bind, EStateM.bind, hw]
    exact hf
  . rw [htext₂, htext₁, List.append_assoc]

theorem writeAll_appends (pieces : List Bytes) : Appends (writeAll pieces) pieces.flatten := by
  induction pieces with
  | nil => exact pure_appends
  | cons piece pieces ih => exact (write_appends piece).bind ih

end WriteM

open WriteM

namespace Command

namespace RunM

def ending (error : Option Error) (p : Progress) : EStateM.Result Error Progress Unit :=
  match error with
  | none => .ok () p
  | some e => .error e p

/--
To every output that takes all, the text is added, and then the run goes on or fails.
-/
structure Shows (m : RunM Unit) (text : Bytes) (error : Option Error) : Prop where
  exists_progress : ∀ p : Progress, p.output.left = none
    → ∃ p', m p = ending error p' ∧ p'.output.left = none ∧ p'.output.text = p.output.text ++ text

namespace Shows

theorem of_output_eq {m : RunM Unit} {error : Option Error}
    (h : ∀ p, ∃ p', m p = ending error p' ∧ p'.output = p.output) : Shows m [] error := by
  constructor
  intro p hopen
  obtain ⟨p', hm, houtput⟩ := h p
  rw [← houtput] at hopen ⊢
  exact ⟨p', hm, hopen, (List.append_nil _).symm⟩

theorem pure : Shows (pure ()) [] none :=
  of_output_eq fun p => ⟨p, rfl, rfl⟩

theorem throw (e : Error) : Shows (throw e) [] (some e) :=
  of_output_eq fun p => ⟨p, rfl, rfl⟩

theorem log (level : Level) (text : Bytes) : Shows (RunM.log level text) [] none :=
  of_output_eq fun _ => ⟨_, rfl, rfl⟩

theorem bind {m : RunM Unit} {f : Unit → RunM Unit} {text text' : Bytes} {error : Option Error}
    (first : Shows m text none) (rest : Shows (f ()) text' error)
    : Shows (m >>= f) (text ++ text') error := by
  constructor
  intro p hopen
  obtain ⟨p₁, hm, hopen₁, htext₁⟩ := first.exists_progress p hopen
  obtain ⟨p₂, hf, hopen₂, htext₂⟩ := rest.exists_progress p₁ hopen₁
  refine ⟨p₂, ?_, hopen₂, ?_⟩
  . simp only [Bind.bind, EStateM.bind, hm, ending]
    exact hf
  . rw [htext₂, htext₁, List.append_assoc]

theorem quiet_bind {m : RunM Unit} {f : Unit → RunM Unit} {text : Bytes} {error : Option Error}
    (first : Shows m [] none) (rest : Shows (f ()) text error) : Shows (m >>= f) text error :=
  first.bind rest

theorem bind_error {m : RunM Unit} {f : Unit → RunM Unit} {text : Bytes} {e : Error}
    (first : Shows m text (some e)) : Shows (m >>= f) text (some e) := by
  constructor
  intro p hopen
  obtain ⟨p₁, hm, hopen₁, htext₁⟩ := first.exists_progress p hopen
  refine ⟨p₁, ?_, hopen₁, htext₁⟩
  simp only [Bind.bind, EStateM.bind, hm, ending]

theorem write {w : WriteM Unit} {text : Bytes} (h : Appends w text) : Shows (RunM.write w) text none := by
  constructor
  intro p hopen
  obtain ⟨sink, hw, hleft, htext⟩ := h.exists_sink p.output hopen
  refine ⟨{ p with output := sink }, ?_, hleft, htext⟩
  rw [RunM.write, hw]
  rfl

theorem writeOnDemand (piece : Unit → Bytes) : Shows (RunM.writeOnDemand piece) (piece ()) none := by
  constructor
  intro p hopen
  obtain ⟨p', hwrite, hp'⟩ := (write (write_appends (piece ()))).exists_progress p hopen
  refine ⟨p', ?_, hp'⟩
  rw [← hwrite]
  have hroom : p.output.isFull = false := by simp [Sink.isFull, hopen]
  simp [RunM.writeOnDemand, Bind.bind, EStateM.bind, get, getThe, MonadStateOf.get, EStateM.get, hroom]

end Shows

end RunM

open RunM

theorem logDecoded_shows (name : Bytes) (d : Decoded) : Shows (logDecoded name d) [] none := by
  apply Shows.quiet_bind (.log _ _)
  have htrailing : Shows (if 0 < d.chunk.trailingBytes then
      RunM.log .warn (name ++ utf8 s!": {d.chunk.trailingBytes} trailing bytes after main function")
    else pure ()) [] none := by
    split
    . exact .log _ _
    . exact .pure
  dsimp only
  split
  . exact htrailing
  . exact .quiet_bind (.log _ _) htrailing

theorem Form.write_shows (form : Form) (name : Bytes) (c : Chunk)
    : (∃ text, Shows (form.write name c) text none)
        ∨ Shows (form.write name c) [] (some (.unwritable name)) := by
  cases form with
  | json style =>
    unfold Form.write
    dsimp only
    split
    . exact .inl ⟨_, .writeOnDemand _⟩
    . exact .inr (.throw _)
  | header => exact .inl ⟨_, .write (write_appends _)⟩
  | listing options =>
    rw [Form.write, Listing.write_eq_writeAll]
    exact .inl ⟨_, .write (writeAll_appends _)⟩

def Form.alone (form : Form) (name : Bytes) (c : Chunk) : Except Error Bytes :=
  match form.write name c { output := {} } with
  | .ok _ p => .ok p.output.text
  | .error e _ => .error e

theorem Form.alone_eq_ok {form : Form} {name : Bytes} {c : Chunk} {text : Bytes}
    (h : form.alone name c = .ok text) : Shows (form.write name c) text none := by
  obtain ⟨text', hshows⟩ | hshows := form.write_shows name c
  . obtain ⟨p', hwrite, _, htext⟩ := hshows.exists_progress { output := {} } rfl
    rw [alone, hwrite] at h
    injection h with h
    -- The empty output has taken nothing but this text.
    obtain rfl : text' = text := by
      rw [← h]
      exact htext.symm
    exact hshows
  . obtain ⟨p', hwrite, _⟩ := hshows.exists_progress { output := {} } rfl
    rw [alone, hwrite] at h
    cases h

theorem Form.alone_eq_error {form : Form} {name : Bytes} {c : Chunk} {e : Error}
    (h : form.alone name c = .error e)
    : e = .unwritable name ∧ Shows (form.write name c) [] (some e) := by
  obtain ⟨text', hshows⟩ | hshows := form.write_shows name c
  . obtain ⟨p', hwrite, _⟩ := hshows.exists_progress { output := {} } rfl
    rw [alone, hwrite] at h
    cases h
  . obtain ⟨p', hwrite, _⟩ := hshows.exists_progress { output := {} } rfl
    rw [alone, hwrite] at h
    cases h
    exact ⟨rfl, hshows⟩

/--
What is shown of a file that is the only one: a text, or the reason why it fails.
-/
def Environment.shown (env : Environment) (limits : Limits) (form : Form) (name : Bytes)
    : Except Error Bytes :=
  match Batch.outcome env.files env.stdin limits name with
  | .ok decoded => form.alone (displayName name) decoded.chunk
  | .error problem => .error (.input (displayName name) problem)

section

variable (env : Environment) (limits : Limits) (form : Form)

theorem message_of_shown {name : Bytes} {e : Error} (h : env.shown limits form name = .error e)
    (wording : Wording) : ∃ reason, e.message wording = displayName name ++ utf8 ": " ++ reason := by
  unfold Environment.shown at h
  split at h
  . obtain ⟨rfl, _⟩ := Form.alone_eq_error h
    exact ⟨wording.unwritable, rfl⟩
  . next problem _ =>
    cases h
    exact ⟨problem.message wording, rfl⟩

theorem showAll_cons_of_error {name : Bytes} {rest : List (Bytes × Except InputProblem Decoded)}
    {e : Error} (h : env.shown limits form name = .error e)
    : Shows (showAll form ((name, Batch.outcome env.files env.stdin limits name) :: rest)) []
        (some e) := by
  unfold Environment.shown at h
  unfold showAll
  cases houtcome : Batch.outcome env.files env.stdin limits name with
  | error problem =>
    rw [houtcome] at h
    cases h
    exact .of_output_eq fun p => ⟨p, rfl, rfl⟩
  | ok decoded =>
    rw [houtcome] at h
    obtain ⟨_, hwrite⟩ := Form.alone_eq_error h
    exact .quiet_bind (logDecoded_shows _ decoded) (.bind_error hwrite)

theorem showAll_cons_of_ok {name : Bytes} {rest : List (Bytes × Except InputProblem Decoded)}
    {text text' : Bytes} {error : Option Error} (h : env.shown limits form name = .ok text)
    (hrest : Shows (showAll form rest) text' error)
    : Shows (showAll form ((name, Batch.outcome env.files env.stdin limits name) :: rest)) (text ++ text')
        error := by
  unfold Environment.shown at h
  unfold showAll
  cases houtcome : Batch.outcome env.files env.stdin limits name with
  | error problem =>
    rw [houtcome] at h
    cases h
  | ok decoded =>
    rw [houtcome] at h
    exact .quiet_bind (logDecoded_shows _ decoded) (.bind (Form.alone_eq_ok h) hrest)

theorem showAll_shows (names : List Bytes)
    : ∃ (j : Nat) (texts : List Bytes) (error : Option Error),
        (names.take j).map (env.shown limits form) = texts.map .ok
          ∧ (names[j]? = none ∧ error = none
            ∨ ∃ name e, names[j]? = some name ∧ env.shown limits form name = .error e ∧ error = some e)
          ∧ Shows (showAll form (names.map fun name =>
              (name, Batch.outcome env.files env.stdin limits name))) texts.flatten error := by
  induction names with
  | nil => exact ⟨0, [], none, rfl, .inl ⟨rfl, rfl⟩, .pure⟩
  | cons name names ih =>
    rw [List.map_cons]
    cases hshown : env.shown limits form name with
    | error e =>
      refine ⟨0, [], some e, rfl, .inr ⟨name, e, rfl, hshown, rfl⟩, ?_⟩
      exact showAll_cons_of_error env limits form hshown
    | ok text =>
      obtain ⟨j, texts, error, htexts, hj, hrest⟩ := ih
      refine ⟨j + 1, text :: texts, error, ?_, hj, ?_⟩
      . rw [List.take_succ_cons, List.map_cons, List.map_cons, hshown, htexts]
      . exact showAll_cons_of_ok env limits form hshown hrest

theorem runFiles_eq (names : List Bytes) (hactive : env.cancelled = false)
    : runFiles env limits form names
        =
      showAll form (names.map fun name => (name, Batch.outcome env.files env.stdin limits name)) := by
  have hzip := @List.zip_map' _ _ _ id (Batch.outcome env.files env.stdin limits) names
  rw [List.map_id] at hzip
  rw [runFiles, hactive, Bool.false_and, if_neg Bool.false_ne_true]
  dsimp only
  rw [Batch.results_complete, hzip]
  rfl

end

/--
Files are shown in the order of their names up to the first that fails, which is the one that is
reported. No schedule makes a difference, and standard input is read once for all.
-/
theorem runFiles_in_order (env : Environment) (limits : Limits) (form : Form) (names : List Bytes)
    (p : Progress) (hactive : env.cancelled = false) (hopen : p.output.left = none)
    : (∃ (j : Nat) (texts : List Bytes) (p' : Progress),
        (names.take j).map (env.shown limits form) = texts.map .ok
          ∧ p'.output.text = p.output.text ++ texts.flatten
          ∧ (names[j]? = none ∧ runFiles env limits form names p = .ok () p'
            ∨ ∃ name e,
                names[j]? = some name
                  ∧ env.shown limits form name = .error e
                  ∧ (∀ wording, ∃ reason, e.message wording = displayName name ++ utf8 ": " ++ reason)
                  ∧ runFiles env limits form names p = .error e p'))
      ∧ ∀ schedule : List Nat,
          runFiles { env with schedule } limits form names p = runFiles env limits form names p
            ∧ (∀ (i : Nat) (content : Except InputProblem Bytes),
                names[i]? = some standardInputName
                  →
                ((Batch.start env.stdin names).follow env.files limits schedule).tasks[i]?
                    = some (.loaded content)
                  →
                content = env.stdin.mapError .standardInput)
            ∧ ((Batch.start env.stdin names).follow env.files limits schedule).input.readings ≤ 1
            ∧ ((Batch.start env.stdin names).complete env.files limits schedule).input.readings
                = if standardInputName ∈ names then 1 else 0 := by
  constructor
  . obtain ⟨j, texts, error, htexts, hj, hshows⟩ := showAll_shows env limits form names
    obtain ⟨p', hp', _, htext⟩ := hshows.exists_progress p hopen
    rw [← runFiles_eq env limits form names hactive] at hp'
    refine ⟨j, texts, p', htexts, htext, ?_⟩
    obtain ⟨hnone, rfl⟩ | ⟨name, e, hname, hshown, rfl⟩ := hj
    . exact .inl ⟨hnone, hp'⟩
    . exact .inr ⟨name, e, hname, hshown, message_of_shown env limits form hshown, hp'⟩
  . intro schedule
    have hinvariant := (@Batch.Invariant.start env.files env.stdin limits names).follow schedule
    refine ⟨?_, ?_, hinvariant.readings_le, Batch.readings_complete _ _ _ _ _⟩
    . rw [runFiles_eq env limits form names hactive]
      rw [runFiles_eq { env with schedule } limits form names hactive]
    . intro i content hname htask
      exact hinvariant.follows i _ _ hname htask

def sampleEnvironment : Environment where
  files _ := .error .notFound
  stdin := .ok Chunk.sampleInput
  schedule := [1, 2, 0]

theorem shown_sampleEnvironment
    : sampleEnvironment.shown { maxDepth := 2, maxCount := 3 } .header standardInputName
        =
      .ok (Listing.headerText (utf8 "stdin") ⟨Chunk.sampleHeader, 1, Chunk.sampleMain, 0⟩) := by
  have hplain : Bzip2.decompressIfNeeded Chunk.sampleInput = .ok Chunk.sampleInput := rfl
  have houtcome : Batch.outcome sampleEnvironment.files sampleEnvironment.stdin
      { maxDepth := 2, maxCount := 3 } standardInputName
        = .ok ⟨⟨Chunk.sampleHeader, 1, Chunk.sampleMain, 0⟩, Chunk.sampleInput.length⟩ := by
    rw [Batch.outcome, Batch.content, if_pos rfl]
    simp only [sampleEnvironment, Except.mapError, Except.bind, Decoded.ofContent, hplain]
    rfl
  rw [Environment.shown, houtcome, displayName, if_pos rfl]
  simp [Form.alone, Form.write, RunM.write, WriteM.write, Sink.text]

theorem runFiles_in_order_sampleEnvironment
    : sampleEnvironment.cancelled = false
        ∧ (∃ p',
            runFiles sampleEnvironment { maxDepth := 2, maxCount := 3 } .header
                [standardInputName, utf8 "x", standardInputName] { output := {} }
              = .error (.input (utf8 "x") (.file (utf8 "x") .notFound)) p'
            ∧ p'.output.text
                = Listing.headerText (utf8 "stdin") ⟨Chunk.sampleHeader, 1, Chunk.sampleMain, 0⟩)
        ∧ ((Batch.start sampleEnvironment.stdin [standardInputName, utf8 "x", standardInputName]).complete
            sampleEnvironment.files { maxDepth := 2, maxCount := 3 } [1, 2, 0]).input.readings = 1 := by
  obtain ⟨⟨j, texts, p', htexts, htext, hend⟩, hschedule⟩ := runFiles_in_order sampleEnvironment
    { maxDepth := 2, maxCount := 3 } .header [standardInputName, utf8 "x", standardInputName]
    { output := {} } rfl rfl
  have hsecond : sampleEnvironment.shown { maxDepth := 2, maxCount := 3 } .header (utf8 "x")
      = .error (.input (utf8 "x") (.file (utf8 "x") .notFound)) := rfl
  refine ⟨rfl, ⟨p', ?_⟩, (hschedule [1, 2, 0]).2.2.2⟩
  match j with
  | 0 =>
    obtain ⟨hnone, _⟩ | ⟨name, e, hname, hshown, _⟩ := hend
    . cases hnone
    . cases hname
      rw [shown_sampleEnvironment] at hshown
      cases hshown
  | 1 =>
    obtain ⟨hnone, _⟩ | ⟨name, e, hname, hshown, _, hrun⟩ := hend
    . cases hnone
    . cases hname
      rw [hsecond] at hshown
      cases hshown
      rw [List.take_succ_cons, List.map_cons, shown_sampleEnvironment] at htexts
      match texts with
      | [] => cases htexts
      | [_] =>
        injection htexts with hshown
        injection hshown with hshown
        rw [htext, ← hshown]
        exact ⟨hrun, List.append_nil _⟩
      | _ :: _ :: _ => cases htexts
  | j + 2 =>
    rw [List.take_succ_cons, List.take_succ_cons, List.map_cons, List.map_cons, hsecond] at htexts
    match texts with
    | [] => cases htexts
    | [_] => cases htexts
    | _ :: _ :: _ => cases htexts

end Command

end LuaBytecode
