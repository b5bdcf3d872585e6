import IamInventory.Proofs.Documents
import IamInventory.Proofs.Startup

/-!
# The program — from the command line to the exit code

  Whatever the service answers, the program comes to an exit code, and there are three ways to it.
  Settings that do not pass and a session that is not resolved end it with a complaint. Otherwise
  the reports run, and what they have found is shown: the table, and the document if one is asked
  for, whether or not reports have failed.

* **`CommandLine.Surveys`** — the inventory that the program comes to.
* **`CommandLine.Presents`** — an ending that shows an inventory.
* **`CommandLine.run_tells`** — the exit code, and what it tells.
* **`CommandLine.run_settled`** — what becomes of the program.
-/

namespace IamInventory

/-! ## What is shown -/

namespace Trace

variable {P : Action → Prop} {t : Trace}

theorem output_append (t u : Trace) : output (t ++ u) = output t ++ output u := by
  rw [output, List.map_append, String.join_append]
  rfl

theorem saves_append (t u : Trace) : saves (t ++ u) = saves t ++ saves u := by
  rw [saves, List.filterMap_append]
  rfl

theorem output_of_isWork (h : ∀ e ∈ t, e.IsWork P) : t.output = "" := by
  induction t with
  | nil => rfl
  | cons e t ih =>
    obtain ⟨he, ht⟩ := List.forall_mem_cons.mp h
    have hrest := ih ht
    rw [output] at hrest
    rw [output, List.map_cons, String.join_cons, hrest]
    cases e with
    | printed text => exact he.elim
    | _ => rfl

theorem saves_of_isWork (h : ∀ e ∈ t, e.IsWork P) : t.saves = [] := by
  refine List.filterMap_eq_nil_iff.mpr fun e he => ?_
  have hwork := h e he
  cases e with
  | saved path document => exact hwork.elim
  | _ => rfl

theorem output_printedLines (lines : List String) :
    output (Export.printedLines lines) = String.join (lines.map (· ++ "\n")) := by
  rw [output, Export.printedLines, List.map_map]
  rfl

theorem saves_printedLines (lines : List String) : saves (Export.printedLines lines) = [] := by
  refine List.filterMap_eq_nil_iff.mpr fun e he => ?_
  obtain ⟨line, -, rfl⟩ := List.mem_map.mp he
  rfl

end Trace

/-- The names of reports that have run are texts. -/
theorem Inventory.InTurn.exists_inventoryOf {session : Session} {path : Value}
    {kinds : List ReportKind} {s left : Script} {inventory : Inventory} {trace : Trace}
    (h : InTurn session path () kinds s inventory left trace) :
    ∃ reports : List (String × Report), inventory = Export.inventoryOf reports := by
  induction h with
  | nil => exact ⟨[], rfl⟩
  | @cons kind kinds s s₁ s₂ report inventory t t' _ _ ih =>
    obtain ⟨reports, rfl⟩ := ih
    exact ⟨(kind.name, report) :: reports, rfl⟩

namespace CommandLine

/-! ## Presenting an inventory -/

/-- The lines that tell where an inventory has been saved. -/
def savedLines (a : Arguments) : List String :=
  match a.jsonPath.text? with
  | none => []
  | some path => ["Resources exported to " ++ path]

/-- **Whether an ending shows an inventory**: its table is printed, and its document is saved if one
    is asked for. -/
def Presents (a : Arguments) (inventory : Inventory) (e : Ending) : Prop :=
  ∃ lines text, Export.IsTable inventory lines ∧ Export.documentText inventory = .ok text ∧
    e.output = String.join ((lines ++ savedLines a).map (· ++ "\n")) ∧
    e.trace.saves = (a.jsonPath.text?.map fun path => (path, Document.text text)).toList

/-- What is done to save the text of an inventory, if it is to be saved. -/
def savedEvents (a : Arguments) (text : String) : Trace :=
  (a.jsonPath.text?.map fun path => Event.saved path (.text text)).toList ++
    Export.printedLines (savedLines a)

variable {world : Surroundings} {a : Arguments} {inventory : Inventory}

theorem presentDocument_emits (hpath : ∀ path, a.jsonPath.text? = some path →
      Path.fault? [] path = none)
    {text : String} (htext : Export.documentText inventory = .ok text) :
    ∃ files, (presentDocument a inventory).Emits files (savedEvents a text) := by
  rw [presentDocument, savedEvents, savedLines]
  cases hjson : a.jsonPath.text? with
  | none => exact ⟨[], .pure []⟩
  | some path =>
    have hsave : (save [] path ((Export.documentText inventory).map .text)).Emits ()
        [.saved path (.text text)] := by
      rw [save, hpath path hjson, htext]
      exact fun _ _ => rfl
    exact ⟨_, hsave.bind (.bind (Export.printLine_emits _) (.pure _))⟩

/-- **What is shown of an inventory**, where no workbook is asked for: its table, and then where its
    document has been saved. -/
theorem present_emits (world : Surroundings) (hexcel : a.excelPath.text? = none)
    (hpath : ∀ path, a.jsonPath.text? = some path → Path.fault? [] path = none)
    (hrows : ∀ r ∈ Inventory.resources inventory,
      (∃ name, r.1 = .text name) ∧ r.2.IsPrintable)
    (hreadable : ∀ p ∈ inventory, ∀ f, p.2.error = some f → f.isReadable)
    {text : String} (htext : Export.documentText inventory = .ok text) :
    ∃ lines, Export.IsTable inventory lines ∧
      (present world a inventory).Emits ()
        (Export.printedLines lines ++ savedEvents a text) := by
  obtain ⟨lines, htable, hprint⟩ : ∃ lines, Export.IsTable inventory lines ∧
      (Export.printTable inventory : Run Unit Unit).Emits () (Export.printedLines lines) :=
    Export.printTable_emits hrows hreadable
  obtain ⟨files, hsaved⟩ := presentDocument_emits hpath htext
  have hworkbook : (presentWorkbook world a inventory files).Emits () [] := by
    rw [presentWorkbook, hexcel]
    exact .pure ()
  refine ⟨lines, htable, ?_⟩
  have hall := hprint.bind (f := fun _ => presentDocument a inventory >>= fun files =>
    presentWorkbook world a inventory files) (hsaved.bind hworkbook)
  rw [List.append_nil] at hall
  exact hall

/-! ## The three ways -/

/-- **Whether an inventory is what the program comes to**: the settings pass, the session is
    resolved, and the reports that are asked for run in turn on the answers that are left. -/
inductive Surveys (world : Surroundings) (a : Arguments) (script : Script)
    (inventory : Inventory) : Prop where
  | intro {settings : Settings} {session : Session} {kinds : List ReportKind} {s left : Script}
      {t t' : Trace}
      (passed : resolveSettings world.environment a = .ok settings)
      (resolved : openSession world a settings () script = ⟨.ok session, (), s, t⟩)
      (asked : kinds.map ReportKind.name = Inventory.keys (a.reports.getD []))
      (ran : Inventory.InTurn session (passedOn a.pathPrefix) () kinds s inventory left t') :
      Surveys world a script inventory

variable {script : Script}

/-- The program comes to one inventory only. -/
theorem Surveys.unique {inventory' : Inventory} (h : Surveys world a script inventory)
    (h' : Surveys world a script inventory') : inventory = inventory' := by
  obtain ⟨passed, resolved, asked, ran⟩ := h
  obtain ⟨passed', resolved', asked', ran'⟩ := h'
  obtain rfl := Except.ok.inj (passed.symm.trans passed')
  have hopened := resolved.symm.trans resolved'
  injection hopened with hsession _ hleft _
  obtain rfl := Except.ok.inj hsession
  subst hleft
  obtain rfl : _ = _ := List.map_injective_iff.mpr (fun _ _ => Inventory.name_injective)
    (asked.trans asked'.symm)
  exact ran.inventory_eq ran'

theorem execute_of_invalid {message : String}
    (h : resolveSettings world.environment a = .error (.invalid message)) :
    execute world a () script =
      ⟨.ok 1, (), script, [.complained ("Error: " ++ message ++ "\n")]⟩ := by
  rw [execute, h]
  rfl

/-- What the program does when the reports have come to an end. -/
def finish (world : Surroundings) (a : Arguments) (inventory : Except Fault Inventory) :
    Run Unit Nat :=
  match inventory with
  | .error (.invalid message) => do
    complain ("Error: " ++ message)
    pure 1
  | .error e => Run.fault e
  | .ok inventory => do
    present world a inventory
    pure (if Inventory.isOk inventory then 0 else 1)

/-- What the program does when the session has been resolved, or has not. -/
def proceed (world : Surroundings) (a : Arguments) (session : Except Fault Session) :
    Run Unit Nat :=
  match session with
  | .error e =>
    match unresolved? e with
    | some message => do
      complain ("Error: unable to resolve the AWS account: " ++ message)
      pure 1
    | none => Run.fault e
  | .ok session =>
    Run.attempt () (Inventory.collect ((a.reports.getD []).map .text) session
      (passedOn a.pathPrefix)) >>= fun p => finish world a p.1

theorem execute_eq {settings : Settings}
    (h : resolveSettings world.environment a = .ok settings) :
    execute world a = Run.attempt () (openSession world a settings) >>= fun p =>
      proceed world a p.1 := by
  rw [execute, h]
  rfl

theorem attempt_eq {α : Type} (m : Run Unit α) (s : Script) :
    (Run.attempt () m : Run Unit (Except Fault α × Unit)) () s =
      ⟨.ok ((m () s).result, ()), (), (m () s).left, (m () s).trace⟩ := rfl

theorem execute_of_unresolved {settings : Settings} {e : Fault} {message : String}
    (hsettings : resolveSettings world.environment a = .ok settings)
    (hsession : (openSession world a settings () script).result = .error e)
    (hmessage : unresolved? e = some message) :
    ∃ left, execute world a () script = ⟨.ok 1, (), left,
      (openSession world a settings () script).trace ++
        [.complained ("Error: unable to resolve the AWS account: " ++ message ++ "\n")]⟩ := by
  refine ⟨(openSession world a settings () script).left, ?_⟩
  rw [execute_eq hsettings, Run.bind_of_ok (by rw [attempt_eq]), attempt_eq, hsession, proceed,
    hmessage]
  rfl

theorem execute_of_surveys {settings : Settings} {session : Session} {kinds : List ReportKind}
    {s left : Script} {t t' shown : Trace}
    (hnames : ∀ name ∈ a.reports.getD [], Inventory.IsRegistered name)
    (hsettings : resolveSettings world.environment a = .ok settings)
    (hsession : openSession world a settings () script = ⟨.ok session, (), s, t⟩)
    (hasked : kinds.map ReportKind.name = Inventory.keys (a.reports.getD []))
    (hran : Inventory.InTurn session (passedOn a.pathPrefix) () kinds s inventory left t')
    (hshown : (present world a inventory).Emits () shown) :
    execute world a () script =
      ⟨.ok (if Inventory.isOk inventory then 0 else 1), (), left, t ++ (t' ++ shown)⟩ := by
  have hcollect := hran.collect_eq hnames hasked
  have hfinish : finish world a (.ok inventory) () left =
      ⟨.ok (if Inventory.isOk inventory then 0 else 1), (), left, shown ++ []⟩ :=
    hshown.bind (f := fun _ => pure (if Inventory.isOk inventory then 0 else 1)) (.pure _) () left
  rw [execute_eq hsettings, Run.bind_of_ok (by rw [attempt_eq]), attempt_eq, hsession]
  dsimp only
  rw [proceed, Run.bind_of_ok (by rw [attempt_eq]), attempt_eq, hcollect]
  dsimp only
  rw [hfinish, List.append_nil]

/-! ## What the exit code tells -/

/-- **What an exit code tells**: it is 0 if there is an inventory in which no report has failed, and
    1 otherwise. -/
def Tells (world : Surroundings) (a : Arguments) (script : Script) (code : Nat) : Prop :=
  (code = 0 ∨ code = 1) ∧
    (code = 0 ↔ ∃ inventory, Surveys world a script inventory ∧
      ∀ p ∈ inventory, p.2.error = none)

theorem tells_one (h : ∀ inventory, ¬ Surveys world a script inventory) :
    Tells world a script 1 := by
  refine ⟨Or.inr rfl, fun h => absurd h (by decide), ?_⟩
  rintro ⟨inventory, hsurveys, -⟩
  exact absurd hsurveys (h inventory)

/-- The exit code of an inventory tells whether reports have failed. -/
theorem Surveys.tells (h : Surveys world a script inventory) :
    Tells world a script (if Inventory.isOk inventory then 0 else 1) := by
  have hok : (∃ inventory, Surveys world a script inventory ∧
      ∀ p ∈ inventory, p.2.error = none) ↔ Inventory.isOk inventory = true := by
    rw [Inventory.isOk_iff]
    constructor
    · rintro ⟨inventory', h', hnone⟩
      rw [h.unique h']
      exact hnone
    · exact fun hnone => ⟨inventory, h, hnone⟩
  rw [Tells, hok]
  split
  · next hyes => exact ⟨Or.inl rfl, fun _ => hyes, fun _ => rfl⟩
  · next hno => exact ⟨Or.inr rfl, fun h => absurd h (by decide), fun h => absurd h hno⟩

/-- Where an inventory is come to, the settings pass and the session is resolved. -/
theorem Surveys.resolved (h : Surveys world a script inventory) :
    ∃ settings session, resolveSettings world.environment a = .ok settings ∧
      (openSession world a settings () script).result = .ok session := by
  obtain ⟨passed, resolved, -, -⟩ := h
  exact ⟨_, _, passed, by rw [resolved]⟩

theorem not_surveys_of_invalid {e : Fault} (h : resolveSettings world.environment a = .error e)
    (inventory : Inventory) : ¬ Surveys world a script inventory := by
  intro hsurveys
  obtain ⟨settings, session, hpassed, -⟩ := hsurveys.resolved
  rw [h] at hpassed
  cases hpassed

theorem not_surveys_of_unresolved {settings : Settings} {e : Fault}
    (hsettings : resolveSettings world.environment a = .ok settings)
    (hsession : (openSession world a settings () script).result = .error e)
    (inventory : Inventory) : ¬ Surveys world a script inventory := by
  intro hsurveys
  obtain ⟨settings', session, hpassed, hopened⟩ := hsurveys.resolved
  obtain rfl := Except.ok.inj (hsettings.symm.trans hpassed)
  rw [hsession] at hopened
  cases hopened

/-! ## What becomes of the program -/

/-- A session that has been resolved has what the reports need: they run in turn, all that they find
    has a line, and their failures have words. -/
theorem exists_inTurn {settings : Settings} {session : Session} {s : Script} {t : Trace}
    (hnames : ∀ name ∈ a.reports.getD [], Inventory.IsRegistered name)
    (hscript : script.Answers Answer.Printable)
    (hsession : openSession world a settings () script = ⟨.ok session, (), s, t⟩) :
    ∃ inventory kinds left t', kinds.map ReportKind.name = Inventory.keys (a.reports.getD []) ∧
      Inventory.InTurn session (passedOn a.pathPrefix) () kinds s inventory left t' ∧
      ∀ p ∈ inventory, (∀ f, p.2.error = some f → f.isReadable) ∧
        ∀ r ∈ p.2.resources, r.IsPrintable := by
  obtain ⟨hresult, -, hleft⟩ := yields_openSession world a settings (I := fun _ => True) () script
    trivial hscript
  rw [hsession] at hresult hleft
  obtain ⟨options, hoptions⟩ := hresult
  obtain ⟨kinds, hkinds, -⟩ := Inventory.exists_kinds hnames
  obtain ⟨inventory, left, t', hran, hwhole⟩ := Inventory.exists_inTurn (d := ())
    (Terms.printable session) (passedOn a.pathPrefix) hoptions kinds hleft
  refine ⟨inventory, kinds, left, t', hkinds, hran, fun p hp => ⟨fun f hf => ?_, (hwhole p hp).2⟩⟩
  exact ((hwhole p hp).1 f hf).readable

/-- What is shown behind work that shows nothing. -/
theorem presents_of_trace {e : Ending} {P Q : Action → Prop} {t t' : Trace} {lines : List String}
    {text : String} (ht : ∀ x ∈ t, x.IsWork P) (ht' : ∀ x ∈ t', x.IsWork Q)
    (houtput : e.output = e.trace.output)
    (htrace : e.trace = t ++ (t' ++ (Export.printedLines lines ++ savedEvents a text)))
    (htable : Export.IsTable inventory lines)
    (htext : Export.documentText inventory = .ok text) : Presents a inventory e := by
  refine ⟨lines, text, htable, htext, ?_, ?_⟩
  · rw [houtput, htrace, Trace.output_append, Trace.output_append, Trace.output_append,
      Trace.output_of_isWork ht, Trace.output_of_isWork ht', Trace.output_printedLines,
      savedEvents, Trace.output_append, Trace.output_printedLines, List.map_append,
      String.join_append]
    cases a.jsonPath.text? <;> simp [Trace.output]
  · rw [htrace, Trace.saves_append, Trace.saves_append, Trace.saves_append,
      Trace.saves_of_isWork ht, Trace.saves_of_isWork ht', Trace.saves_printedLines,
      savedEvents, Trace.saves_append, Trace.saves_printedLines]
    cases a.jsonPath.text? <;> rfl

section Run

variable {words : List String} (hparse : Arguments.parse words = .ok a)

include hparse

/-- A blank in place of the level of records ends the program before it has done anything. -/
theorem run_of_blank_level (hlevel : a.logLevel = .blank) (script : Script) :
    run world words script = ending 0 (.error .partless) [] := by
  rw [run, hparse]
  dsimp only
  rw [hlevel]
  rfl

variable (hlevel : a.logLevel ≠ .blank)

include hlevel

theorem run_eq (world : Surroundings) (script : Script) :
    ∃ threshold, run world words script = ending threshold (execute world a () script).result
      (execute world a () script).trace := by
  obtain ⟨setup, hsetup⟩ := (Arguments.isChosen_of_parse hparse).exists_setup hlevel
  refine ⟨setup.threshold, ?_⟩
  rw [run, hparse]
  dsimp only
  rw [hsetup]

/-- A blank in place of the interval between polls ends the program when it is compared with the
    greatest interval of the environment. -/
theorem run_of_blank_interval (hpoll : a.pollInterval = .blank) {settings : Settings}
    (henv : Settings.ofEnvironment world.environment = .ok settings) (script : Script) :
    (run world words script).code = .error .mistyped ∧ (run world words script).trace = [] := by
  obtain ⟨threshold, hrun⟩ := run_eq hparse hlevel world script
  have hsettings : resolveSettings world.environment a = .error .mistyped := by
    have hraised : raisedInterval a settings = .error .mistyped := by rw [raisedInterval, hpoll]
    rw [resolveSettings, henv]
    simp only [bind, Except.bind, hraised]
  rw [hrun, execute, hsettings]
  exact ⟨rfl, rfl⟩

/-- **Settings that do not pass** are complained about, and nothing else is done. -/
theorem run_of_invalid {message : String}
    (h : resolveSettings world.environment a = .error (.invalid message)) (script : Script) :
    (run world words script).code = .ok 1 ∧
      (run world words script).trace = [.complained ("Error: " ++ message ++ "\n")] := by
  obtain ⟨threshold, hrun⟩ := run_eq hparse hlevel world script
  rw [hrun, execute_of_invalid h]
  exact ⟨rfl, rfl⟩

variable (hscript : script.Answers Answer.Printable)

include hscript

/-- **A session that is not resolved** is complained about, and nothing but the account has been
    asked for. -/
theorem run_of_unresolved {settings : Settings} {e : Fault}
    (hsettings : resolveSettings world.environment a = .ok settings)
    (hsession : (openSession world a settings () script).result = .error e) :
    (run world words script).code = .ok 1 ∧
      ∀ c ∈ (run world words script).trace.calls, c.1 = Session.whoAmI := by
  obtain ⟨hresult, -, -⟩ := yields_openSession world a settings (I := fun _ => True) () script
    trivial hscript
  rw [hsession] at hresult
  obtain ⟨message, hmessage⟩ := hresult
  obtain ⟨left, hexecute⟩ := execute_of_unresolved hsettings hsession hmessage
  obtain ⟨threshold, hrun⟩ := run_eq hparse hlevel world script
  have htrace : (run world words script).trace =
      (openSession world a settings () script).trace ++
        [.complained ("Error: unable to resolve the AWS account: " ++ message ++ "\n")] := by
    rw [hrun, hexecute]
    rfl
  refine ⟨by rw [hrun, hexecute]; rfl, ?_⟩
  rw [htrace, Trace.calls_append]
  refine List.forall_mem_append.mpr ⟨?_, List.forall_mem_nil _⟩
  exact Trace.calls_of_isWork (callsOnly_openSession world a settings () script)

variable (hexcel : a.excelPath.text? = none)
  (hpath : ∀ path, a.jsonPath.text? = some path → Path.fault? [] path = none)

include hexcel hpath

/-- **What is shown where reports have run**, and the exit code. -/
theorem run_of_resolved {settings : Settings} {session : Session}
    (hsettings : resolveSettings world.environment a = .ok settings)
    (hsession : (openSession world a settings () script).result = .ok session) :
    ∃ inventory, Surveys world a script inventory ∧
      (run world words script).code = .ok (if Inventory.isOk inventory then 0 else 1) ∧
      Presents a inventory (run world words script) := by
  have hnames := (Arguments.isChosen_of_parse hparse).isRegistered
  have hopened : openSession world a settings () script = ⟨.ok session, (),
      (openSession world a settings () script).left,
      (openSession world a settings () script).trace⟩ := by rw [← hsession]
  obtain ⟨inventory, kinds, left, t', hasked, hran, hprintable⟩ :=
    exists_inTurn hnames hscript hopened
  obtain ⟨reports, rfl⟩ := hran.exists_inventoryOf
  have hreadable : Export.AreReadable reports :=
    fun p hp => (hprintable _ (List.mem_map.mpr ⟨p, hp, rfl⟩)).1
  obtain ⟨text, htext⟩ : ∃ text, Export.documentText (Export.inventoryOf reports) = .ok text := by
    rw [Export.documentText, Export.document_inventoryOf hreadable]
    exact ⟨_, rfl⟩
  have hrows : ∀ r ∈ Inventory.resources (Export.inventoryOf reports),
      (∃ name, r.1 = .text name) ∧ r.2.IsPrintable := by
    intro r hr
    obtain ⟨p, hp, hr⟩ := List.mem_flatMap.mp hr
    obtain ⟨resource, hresource, rfl⟩ := List.mem_map.mp hr
    obtain ⟨q, -, rfl⟩ := List.mem_map.mp hp
    exact ⟨⟨q.1, rfl⟩, (hprintable _ hp).2 resource hresource⟩
  obtain ⟨lines, htable, hshown⟩ :=
    present_emits world hexcel hpath hrows (fun p hp => (hprintable p hp).1) htext
  obtain ⟨threshold, hrun⟩ := run_eq hparse hlevel world script
  have hexecute := execute_of_surveys hnames hsettings hopened hasked hran hshown
  refine ⟨_, ⟨hsettings, hopened, hasked, hran⟩, by rw [hrun, hexecute]; rfl, ?_⟩
  refine presents_of_trace (callsOnly_openSession world a settings () script) hran.isWork ?_ ?_
    htable htext
  · rw [hrun]
    rfl
  · rw [hrun, hexecute]
    rfl

/-- **The program comes to an exit code**, which tells whether all has gone well. -/
theorem run_tells (hpoll : a.pollInterval ≠ .blank) (henv : world.environment.AreTexts) :
    ∃ code, (run world words script).code = .ok code ∧ Tells world a script code := by
  cases hsettings : resolveSettings world.environment a with
  | error e =>
    have hends := ends_resolveSettings henv hpoll
    rw [hsettings] at hends
    obtain ⟨message, rfl⟩ := hends
    exact ⟨1, (run_of_invalid hparse hlevel hsettings script).1,
      tells_one (not_surveys_of_invalid hsettings)⟩
  | ok settings =>
    cases hsession : (openSession world a settings () script).result with
    | error e =>
      exact ⟨1, (run_of_unresolved hparse hlevel hscript hsettings hsession).1,
        tells_one (not_surveys_of_unresolved hsettings hsession)⟩
    | ok session =>
      obtain ⟨inventory, hsurveys, hcode, -⟩ :=
        run_of_resolved hparse hlevel hscript hexcel hpath hsettings hsession
      exact ⟨_, hcode, hsurveys.tells⟩

end Run

/-- **What becomes of the program**, unless a blank stands for the level of records or for the
    interval between polls: it comes to exit code 0 if the settings pass, the session is resolved,
    and no report fails, and to 1 otherwise.

    Where the settings do not pass, all that it does is to complain; where the session is not
    resolved, it has asked for nothing but the account. Otherwise there is one inventory, which is
    shown whether or not reports have failed. -/
theorem run_settled (world : Surroundings) {words : List String}
    (hparse : Arguments.parse words = .ok a)
    (hlevel : a.logLevel ≠ .blank) (hpoll : a.pollInterval ≠ .blank)
    (hexcel : a.excelPath.text? = none)
    (hpath : ∀ path, a.jsonPath.text? = some path → Path.fault? [] path = none)
    (henv : world.environment.AreTexts) (hscript : script.Answers Answer.Printable) :
    (∃ code, (run world words script).code = .ok code ∧ (code = 0 ∨ code = 1) ∧
        (code = 0 ↔ ∃ inventory, Surveys world a script inventory ∧
          ∀ p ∈ inventory, p.2.error = none)) ∧
      (∀ e, resolveSettings world.environment a = .error e →
        ∃ message, e = .invalid message ∧
          (run world words script).trace = [.complained ("Error: " ++ message ++ "\n")]) ∧
      (∀ settings e, resolveSettings world.environment a = .ok settings →
        (openSession world a settings () script).result = .error e →
        ∀ c ∈ (run world words script).trace.calls, c.1 = Session.whoAmI) ∧
      (∀ settings session, resolveSettings world.environment a = .ok settings →
        (openSession world a settings () script).result = .ok session →
        ∃ inventory, Surveys world a script inventory) ∧
      ∀ inventory, Surveys world a script inventory →
        Presents a inventory (run world words script) := by
  refine ⟨run_tells hparse hlevel hscript hexcel hpath hpoll henv, ?_, ?_, ?_, ?_⟩
  · intro e he
    have hends := ends_resolveSettings henv hpoll
    rw [he] at hends
    obtain ⟨message, rfl⟩ := hends
    exact ⟨message, rfl, (run_of_invalid hparse hlevel he script).2⟩
  · intro settings e hsettings hsession
    exact (run_of_unresolved hparse hlevel hscript hsettings hsession).2
  · intro settings session hsettings hsession
    obtain ⟨inventory, hsurveys, -, -⟩ :=
      run_of_resolved hparse hlevel hscript hexcel hpath hsettings hsession
    exact ⟨inventory, hsurveys⟩
  · intro inventory hsurveys
    obtain ⟨settings, session, hsettings, hsession⟩ := hsurveys.resolved
    obtain ⟨inventory', hsurveys', -, hpresents⟩ :=
      run_of_resolved hparse hlevel hscript hexcel hpath hsettings hsession
    rw [hsurveys.unique hsurveys']
    exact hpresents

/-- The program around which nothing is set. -/
def sampleWorld : Surroundings := ⟨[], .text "eu-west-1", true, false⟩

/-- The words that ask for a report on groups and for a document. -/
def sampleWords : List String := ["--reports", "groups", "--json", "out"]

/-- What these words ask for. -/
def sampleArguments : Arguments :=
  { Arguments.default with reports := some ["groups"], jsonPath := .value "out" }

theorem parse_sampleWords : Arguments.parse sampleWords = .ok sampleArguments := by
  have hchoice : Arguments.choice .reports Inventory.sortedNames "groups" = .ok "groups" := by
    have hmem : "groups" ∈ Inventory.sortedNames := List.mem_mergeSort.mpr (by decide)
    rw [Arguments.choice, if_pos hmem]
  have hwords : sampleWords.mapM Arguments.classify = .ok
      [.option .reports none, .plain "groups", .option .json none, .plain "out"] := by rfl
  have hread : Arguments.read false Arguments.default []
      [.option .reports none, .plain "groups", .option .json none, .plain "out"] =
      .ok (sampleArguments, []) := by
    rw [Arguments.read, Arguments.read, Arguments.addReport, hchoice]
    rfl
  refine Json.bind_eq_ok_iff.mpr ⟨_, hwords, ?_⟩
  exact Json.bind_eq_ok_iff.mpr ⟨_, hread, rfl⟩

/-- The document of the sample can be written. -/
theorem fault?_samplePath : Path.fault? [] "out" = none := by
  have hsplit : "out".splitOn "/" = ["out"] := by
    rw [String.splitOn, if_neg (by decide)]
    iterate 3 rw [String.splitOnAux, if_neg (by decide), if_neg (by decide)]
    rw [String.splitOnAux, if_pos (by decide)]
    rfl
  have hparts : Path.parts "out" = ["out"] := by
    rw [Path.parts, hsplit]
    decide
  have hnull : "out".contains '\x00' = false := by
    rw [String.contains_char_eq]
    decide
  have hname : Path.fileName "out" = "out" := by
    rw [Path.fileName, hparts]
    rfl
  have hdirectory : Path.isDirectory "out" = false := by
    rw [Path.isDirectory, hname]
    decide +kernel
  have hdirectories : Path.directories "out" = [] := by
    rw [Path.directories, hparts]
    rfl
  rw [Path.fault?, hnull, hdirectories, hdirectory, hname]
  rfl

/-- Answers that tell the account, and then two groups, one of which has no name that is an ARN. -/
def sampleScript : Script :=
  { ReportKind.malformedScript with
    queues := (Session.whoAmI, [.response (.object [("Account", .text "123456789012")])]) ::
      ReportKind.malformedScript.queues }

theorem printable_sampleScript : sampleScript.Answers Answer.Printable := by
  intro q hq a ha
  rcases List.mem_cons.mp hq with rfl | hq
  · obtain rfl := List.mem_singleton.mp ha
    have hneeded : ∀ row ∈ Members.needed, Session.whoAmI ≠ row.1 := by decide
    have hidentified : ∀ row ∈ Members.identified, Session.whoAmI ≠ row.1 := by decide
    have houter : ∀ kind : ReportKind, Session.whoAmI ≠ kind.outer := by
      intro kind
      cases kind <;> decide
    refine ⟨⟨_, rfl, fun row hrow h => absurd h (hneeded row hrow), ?_, ?_, ?_, ?_, ?_, ?_⟩, ?_⟩
    iterate 6 exact nofun
    intro ms hms
    cases hms
    exact ⟨fun _ => rfl, fun row hrow h => absurd h (hidentified row hrow),
      fun kind h => absurd h (houter kind), nofun, nofun⟩
  · refine ⟨ReportKind.answers_malformedScript q hq a ha, ?_⟩
    obtain rfl := List.mem_singleton.mp hq
    obtain rfl := List.mem_singleton.mp ha
    intro ms hms
    cases hms
    have hidentified : ∀ row ∈ Members.identified, (⟨"list_groups"⟩ : Action) ≠ row.1 := by decide
    refine ⟨nofun, fun row hrow h => absurd h (hidentified row hrow), ?_, nofun, nofun⟩
    intro kind hkind
    cases kind with
    | groups =>
      intro v hv
      cases hv
      refine ⟨_, rfl, fun item hitem => ?_⟩
      rcases List.mem_pair.mp hitem with rfl | rfl <;> rfl
    | _ => exact absurd hkind (by decide)

/-- The report on groups is all that is asked for, and it fails. -/
theorem surveys_sampleScript : ∃ inventory,
    Surveys sampleWorld sampleArguments sampleScript inventory ∧
      Inventory.isOk inventory = false := by
  have hstages : (resolveSettings sampleWorld.environment sampleArguments >>= fun settings =>
      (openSession sampleWorld sampleArguments settings () sampleScript).result >>= fun session =>
        (Inventory.collect (["groups"].map .text) session .null ()
          (openSession sampleWorld sampleArguments settings () sampleScript).left).result.map
            Inventory.isOk).toOption = some false := by
    decide +kernel
  have hnames := (Arguments.isChosen_of_parse parse_sampleWords).isRegistered
  cases hpassed : resolveSettings sampleWorld.environment sampleArguments with
  | error e =>
    rw [hpassed] at hstages
    cases hstages
  | ok settings =>
    rw [hpassed] at hstages
    simp only [bind, Except.bind] at hstages
    rcases hopened : openSession sampleWorld sampleArguments settings () sampleScript with
      ⟨result, ⟨⟩, left, t⟩
    rw [hopened] at hstages
    cases result with
    | error e => cases hstages
    | ok session =>
      obtain ⟨inventory, kinds, left', t', hasked, hran, -⟩ :=
        exists_inTurn hnames printable_sampleScript hopened
      refine ⟨inventory, ⟨hpassed, hopened, hasked, hran⟩, ?_⟩
      have hcollect : Inventory.collect (["groups"].map .text) session .null () left = _ :=
        hran.collect_eq hnames hasked
      dsimp only at hstages
      rw [hcollect] at hstages
      exact Option.some.inj hstages

/-- What the report on groups has found is shown although it fails. -/
theorem run_settled_malformed :
    Arguments.parse sampleWords = .ok sampleArguments ∧
    sampleArguments.logLevel ≠ .blank ∧ sampleArguments.pollInterval ≠ .blank ∧
    sampleArguments.excelPath.text? = none ∧
    (∀ path, sampleArguments.jsonPath.text? = some path → Path.fault? [] path = none) ∧
    sampleWorld.environment.AreTexts ∧ sampleScript.Answers Answer.Printable ∧
    (run sampleWorld sampleWords sampleScript).code = .ok 1 ∧
    ∃ inventory, Surveys sampleWorld sampleArguments sampleScript inventory ∧
      Inventory.isOk inventory = false ∧
      Presents sampleArguments inventory (run sampleWorld sampleWords sampleScript) := by
  have hlevel : sampleArguments.logLevel ≠ .blank := by decide
  have hpoll : sampleArguments.pollInterval ≠ .blank := by decide
  have hpath : ∀ path, sampleArguments.jsonPath.text? = some path →
      Path.fault? [] path = none := by
    intro path h
    obtain rfl : "out" = path := Option.some.inj h
    exact fault?_samplePath
  have henv : sampleWorld.environment.AreTexts := List.forall_mem_nil _
  obtain ⟨⟨code, hcode, hrange, hzero⟩, -, -, -, hpresents⟩ :=
    run_settled sampleWorld parse_sampleWords hlevel hpoll rfl hpath henv printable_sampleScript
  obtain ⟨inventory, hsurveys, hfails⟩ := surveys_sampleScript
  have hone : code = 1 := by
    refine hrange.resolve_left fun h => ?_
    obtain ⟨inventory', hsurveys', hnone⟩ := hzero.mp h
    rw [hsurveys'.unique hsurveys] at hnone
    rw [(Inventory.isOk_iff inventory).mpr hnone] at hfails
    cases hfails
  exact ⟨parse_sampleWords, hlevel, hpoll, rfl, hpath, henv, printable_sampleScript, hone ▸ hcode,
    inventory, hsurveys, hfails, hpresents inventory hsurveys⟩

end CommandLine

end IamInventory
