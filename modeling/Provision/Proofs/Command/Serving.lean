import Provision.Proofs.Command.Preparing
import Provision.Proofs.Command.Reading
import Provision.Proofs.Configuration.Precedence

/-!
# The server that a command line starts

A server is prepared by the words for the main command and those for its own, and by the configuration that is loaded
(`prepared_web`). It is then started at a host and a port (`served_prepared`), each of which is the one that is asked
for, or else the one of the settings; but zero, and an empty host, count as not asked for (`served_as_asked_iff`).
-/

namespace Provision.Command

variable {o o' : Output} {w w' : Workspace} {words rest : List String} {env : Configuration.Environment} {l : Line}
  {c : Context}

/-- The port that is asked for. -/
def askedPort (l : Line) : Option Int :=
  (l.value? "port").bind Decimal.integer?

theorem isSome_askedPort (h : ends (readLine .web words) o w = ((.ok l, o'), w')) :
    (askedPort l).isSome = (l.value? "port").isSome := by
  obtain ⟨hread, hinteger⟩ := readLine_eq_ok h
  rw [askedPort]
  cases hv : l.value? "port" with
  | none => rfl
  | some v =>
    have hmem : v ∈ l.values "port" := List.mem_of_getLast? hv
    obtain ⟨g, hg, hvalue⟩ := List.mem_filterMap.1 hmem
    split at hvalue
    · rename_i hkey
      have hoption := mem_of_read hread g hg
      have hport : g.option = ⟨"port", ["--port", "-p"], some .integer⟩ := by
        simp only [Name.signature, List.mem_cons, List.not_mem_nil, or_false] at hoption
        rcases hoption with h | h | h <;> rw [h] at hkey ⊢ <;> simp [Name.help] at hkey
      have hoptions : g.option ∈ l.options := List.mem_eraseDups.2 (List.mem_map_of_mem hg)
      exact hinteger g.option hoptions (by rw [hport]) v (by rw [hkey, hv])
    · cases hvalue

theorem silent_setUpLog (l : Line) (c : Configuration) (env : Configuration.Environment) :
    Silent (setUpLog l c env) := by
  have hget : Silent (getThe Workspace : RunM Workspace) := by
    intro o w a o' w' h
    cases h
    rfl
  have hmodify : ∀ g : Workspace → Workspace, Silent (modifyThe Workspace g : RunM Unit) := by
    intro g o w a o' w' h
    cases h
    rfl
  rw [setUpLog]
  refine .bind hget fun w₀ => ?_
  dsimp only
  split
  · exact .bind (silent_onDisk _) fun _ => hmodify _
  · exact hmodify _

/-- The settings file that a command line names. -/
def settingsFile (l : Line) : Option Path :=
  ((l.value? "config").filter (· ≠ "")).map Path.ofString

theorem start_eq_ok (h : ends (start l env) o w = ((.ok c, o'), w')) : o' = o ∧ c.debug = l.has "debug" ∧
    ∃ w₁, (Configuration.load (settingsFile l) env).run w = (.ok c.configuration, w₁) := by
  rw [start] at h
  obtain ⟨configuration, o₁, w₁, hload, h⟩ := ends_bind_eq_ok.1 h
  obtain ⟨u, o₂, w₂, hlog, h⟩ := (ends_bind_eq_ok (x := setUpLog l configuration env)).1 h
  cases h
  have hloaded : o₁ = o ∧ (Configuration.load (settingsFile l) env).run w = (.ok configuration, w₁) := by
    refine work_eq_ok (fun f => ?_) hload
    cases f with
    | config fault => exact stops_abort _
    | _ => exact .throw _
  obtain ⟨rfl, hrun⟩ := hloaded
  exact ⟨silent_setUpLog _ _ _ _ _ _ _ _ hlog, rfl, w₁, hrun⟩

/-- What a prepared server was prepared from: the words for the main command and for its own, and the configuration. -/
theorem prepared_web (h : Prepared words env w c l .web o w') : o = {} ∧ ∃ main rest,
    Line.read Name.main.signature words = .ok main ∧ main.words = "web" :: rest ∧
      Line.read Name.web.signature rest = .ok l ∧ (askedPort l).isSome = (l.value? "port").isSome ∧
      c.debug = main.has "debug" ∧
      ∃ w₁, (Configuration.load (settingsFile main) env).run w.withoutLog = (.ok c.configuration, w₁) := by
  rw [Prepared, prepare] at h
  obtain ⟨u, o₁, w₁, hwords, h⟩ := ends_bind_eq_ok.1 h
  obtain ⟨rfl, rfl⟩ := traceless_needsWords .main words _ _ _ _ _ hwords
  obtain ⟨main, o₂, w₂, hmain, h⟩ := ends_bind_eq_ok.1 h
  obtain ⟨rfl, rfl⟩ := traceless_readLine .main words _ _ _ _ _ hmain
  obtain ⟨⟨n, rest⟩, o₃, w₃, hresolve, h⟩ := ends_bind_eq_ok.1 h
  obtain ⟨rfl, rfl⟩ := traceless_resolve .main main.words _ _ _ _ _ hresolve
  obtain ⟨c', o₄, w₄, hstart, h⟩ := ends_bind_eq_ok.1 h
  obtain ⟨rfl, hdebug, w₅, hload⟩ := start_eq_ok hstart
  obtain ⟨word, hmainwords, hlookup⟩ := resolve_eq_ok hresolve
  have hmember := mem_of_lookup hlookup
  simp only [Name.members, List.mem_cons, List.not_mem_nil, or_false, Prod.mk.injEq] at hmember
  rcases hmember with ⟨rfl, rfl⟩ | ⟨rfl, rfl⟩ | ⟨rfl, rfl⟩ | ⟨rfl, rfl⟩
  case inr.inr.inl =>
    obtain ⟨l', o₆, w₆, hl, h⟩ := ends_bind_eq_ok.1 h
    cases h
    obtain ⟨rfl, rfl⟩ := traceless_readLine .web rest _ _ _ _ _ hl
    exact ⟨rfl, main, rest, (readLine_eq_ok hmain).1, hmainwords, (readLine_eq_ok hl).1, isSome_askedPort hl, hdebug,
      w₅, hload⟩
  case inr.inr.inr =>
    -- No command of the group is the one that starts a server.
    obtain ⟨u, o₆, w₆, -, h⟩ := ends_bind_eq_ok.1 h
    obtain ⟨g, o₇, w₇, -, h⟩ := ends_bind_eq_ok.1 h
    obtain ⟨⟨m, rest'⟩, o₈, w₈, hresolve', h⟩ := ends_bind_eq_ok.1 h
    obtain ⟨word, -, hlookup'⟩ := resolve_eq_ok hresolve'
    obtain ⟨l', o₉, w₉, -, h⟩ := ends_bind_eq_ok.1 h
    cases h
    have hmember' := mem_of_lookup hlookup'
    simp [Name.members] at hmember'
  all_goals
    obtain ⟨l', o₆, w₆, -, h⟩ := ends_bind_eq_ok.1 h
    cases h

/-! ### The server -/

theorem served_web (c : Context) (l : Line) (o : Output) (w : Workspace) : (ends (web c l) o w).1.2.served =
    if Json.fitsDigitLimit (portFor l c.configuration) = true then
      some ⟨hostFor l c.configuration, portFor l c.configuration, c.debug⟩
    else o.served := by
  rw [web]
  dsimp only
  by_cases hfits : Json.fitsDigitLimit (portFor l c.configuration) = true
  · rw [hfits]
    rfl
  · rw [Bool.not_eq_true] at hfits
    rw [hfits]
    rfl

theorem served_prepared (h : Prepared words env w c l .web {} w') : ((run words env).run w).1.served =
    if Json.fitsDigitLimit (portFor l c.configuration) = true then
      some ⟨hostFor l c.configuration, portFor l c.configuration, c.debug⟩
    else none := by
  have hrun : ends (runMain words env) {} w.withoutLog = ends (web c l) {} w' := by
    rw [runMain_eq, ends_bind_ok h]
    rfl
  have hresult : ((run words env).run w).1 = (resultOf (ends (runMain words env) {} w.withoutLog).1.1
      (ends (runMain words env) {} w.withoutLog).1.2 (ends (runMain words env) {} w.withoutLog).2.console).unreturned :=
    rfl
  have hserved : ∀ ended output logged, (resultOf ended output logged).unreturned.served = output.served := by
    rintro ((code | ⟨m, fault⟩ | cause) | ⟨⟩) output logged <;> rfl
  rw [hresult, hserved, hrun]
  exact served_web c l {} w'

theorem getD_filter_eq_iff {α : Type} [DecidableEq α] (x : Option α) (unset default : α) :
    (x.filter (· ≠ unset)).getD default = x.getD default ↔ x ≠ some unset ∨ default = unset := by
  cases x with
  | none => simp
  | some a =>
    by_cases h : a = unset
    · subst h
      simp [Option.filter_some]
    · simp [Option.filter_some, h]

/-- Where a server is prepared, its configuration has been settled from the variables, the file that was chosen and the
defaults, and the data root counts from the file where it is relative. The server is started unless its port has too
many digits to be told. Its port is the one that is asked for, or else the one of the settings, exactly if it is not
zero that is asked for, and its host likewise if that is not empty: these two count as not asked for. -/
theorem served_as_asked_iff (h : Prepared words env w c l .web o w') : ∃ main rest file entries settings host port,
    (Line.read Name.main.signature words = .ok main ∧ main.words = "web" :: rest ∧
      Line.read Name.web.signature rest = .ok l) ∧
    Configuration.Chooses (settingsFile main) w.withoutLog file entries ∧
    Configuration.Settled env entries settings ∧
    ((∀ f, file = some f → settings.dataRoot.isAbsolute = false →
        c.configuration.dataRoot = ⟨f.parent.anchor, f.parent.names ++ settings.dataRoot.names⟩) ∧
      (file = none ∨ settings.dataRoot.isAbsolute = true → c.configuration.dataRoot = settings.dataRoot)) ∧
    ((run words env).run w).1.served =
      (if Json.fitsDigitLimit port = true then some ⟨host, port, main.has "debug"⟩ else none) ∧
    (askedPort l).isSome = (l.value? "port").isSome ∧
    (port = (askedPort l).getD settings.port ↔ askedPort l ≠ some 0 ∨ settings.port = 0) ∧
    (host = (l.value? "host").getD settings.host ↔ l.value? "host" ≠ some "" ∨ settings.host = "") := by
  obtain ⟨rfl, main, rest, hmain, hwords, hweb, hport, hdebug, w₁, hload⟩ := prepared_web h
  obtain ⟨file, entries, hchooses, hparts⟩ := Configuration.load_eq_ok hload
  obtain ⟨settings, hsettled, hanchored⟩ := Configuration.ofParts_eq_ok.1 hparts
  have hroot := Configuration.anchored_dataRoot file settings
  have hkept : c.configuration.host = settings.host ∧ c.configuration.port = settings.port := by
    rw [← hanchored]
    cases file <;> exact ⟨rfl, rfl⟩
  rw [hanchored] at hroot
  refine ⟨main, rest, file, entries, settings, hostFor l c.configuration, portFor l c.configuration,
    ⟨hmain, hwords, hweb⟩, hchooses, hsettled, ⟨?relative, ?kept⟩, ?served, hport, ?port, ?host⟩
  case relative =>
    rintro f rfl habsolute
    rw [hroot]
    dsimp only
    rw [if_neg (by simp [habsolute])]
  case kept =>
    rintro (rfl | habsolute)
    · exact hroot
    · rw [hroot]
      cases file with
      | none => rfl
      | some f => exact if_pos habsolute
  case served => rw [served_prepared h, hdebug]
  case port =>
    rw [portFor, ← askedPort, hkept.2]
    exact getD_filter_eq_iff _ _ _
  case host =>
    rw [hostFor, hkept.1]
    exact getD_filter_eq_iff _ _ _

namespace Serving

/-- A workspace with nothing in it. -/
def bareWorkspace : Workspace where
  disk := { root := .dir [], cwd := [] }
  tempDir := ⟨.root, ["tmp"]⟩
  now := .epoch

/-- The workspace once the log has been set up. -/
def preparedWorkspace : Workspace :=
  { bareWorkspace.withoutLog with log := Log.setup "WARNING" none none true }

def defaultContext : Context where
  quiet := false
  debug := false
  configuration := {}

theorem start_bare :
    ends (start {} []) {} bareWorkspace.withoutLog = ((.ok defaultContext, {}), preparedWorkspace) := by
  have hmissing : bareWorkspace.withoutLog.disk.Finds ⟨.root, [Configuration.fileName]⟩
      (.absent [Configuration.fileName]) := ⟨by decide, by decide, by rfl⟩
  exact start_default rfl hmissing.missing

/-- A command line that asks for a port. -/
def portLine (value : String) : Line :=
  ⟨[⟨⟨"port", ["--port", "-p"], some .integer⟩, some value⟩], []⟩

theorem ends_readLine_port {value : String} (h : (Decimal.integer? value).isSome = true) (o : Output) (w : Workspace) :
    ends (readLine .web ["--port", value]) o w = ((.ok (portLine value), o), w) := by
  have hoption : isOption "--port" = true := isOption_iff.2 (by decide)
  have hword : readWord Name.web.signature.options "--port" =
      .ok ⟨[], some (⟨"port", ["--port", "-p"], some .integer⟩, "--port")⟩ := rfl
  have hread : Line.read Name.web.signature ["--port", value] = .ok (portLine value) := by
    rw [Line.read, if_neg (by decide), if_pos hoption, hword]
    rfl
  have hcheck : checkValue .web "'--port' / '-p'" value .integer = pure () := if_pos h
  have heager : ends (runEager .web (portLine value).options) o w = ((.ok (), o), w) := rfl
  have hoptions : ends (checkOptions .web (portLine value) (portLine value).options) o w = ((.ok (), o), w) := by
    change ends (checkValue .web "'--port' / '-p'" value .integer >>= fun _ => pure ()) o w = _
    rw [hcheck]
    rfl
  rw [readLine, hread]
  exact (ends_bind_ok heager).trans (ends_bind_ok hoptions)

theorem prepared_port {value : String} (h : (Decimal.integer? value).isSome = true) :
    Prepared ["web", "--port", value] [] bareWorkspace defaultContext (portLine value) .web {} preparedWorkspace := by
  rw [Prepared, ends_prepare start_bare (isOption_eq_false (by decide)) rfl]
  exact ends_bind_ok (ends_readLine_port h {} preparedWorkspace)

theorem read_port (value : String) :
    Line.read Name.main.signature ["web", "--port", value] = .ok ⟨[], ["web", "--port", value]⟩ :=
  read_group (isOption_eq_false (by decide)) rfl

theorem served_as_asked_iff_port :
    Prepared ["web", "--port", "9000"] [] bareWorkspace defaultContext (portLine "9000") .web {} preparedWorkspace ∧
      ∃ host, ((run ["web", "--port", "9000"] []).run bareWorkspace).1.served = some ⟨host, 9000, false⟩ := by
  have hinteger : (Decimal.integer? "9000").isSome = true := by decide
  have hasked : askedPort (portLine "9000") = some 9000 := by decide
  have hprepared := prepared_port hinteger
  obtain ⟨main, rest, file, entries, settings, host, port, ⟨hmain, -, -⟩, -, -, -, hserved, -, hport, -⟩ :=
    served_as_asked_iff hprepared
  rw [read_port] at hmain
  cases hmain
  have hport : port = 9000 := by
    rw [hport.2 (.inl (by rw [hasked]; decide)), hasked]
    rfl
  have hfits : Json.fitsDigitLimit 9000 = true := by decide
  rw [hport, if_pos hfits] at hserved
  exact ⟨hprepared, host, hserved⟩

/-- A port of zero is asked for, and the server is started at the one of the settings. -/
theorem zero_not_served : askedPort (portLine "0") = some 0 ∧
    Prepared ["web", "--port", "0"] [] bareWorkspace defaultContext (portLine "0") .web {} preparedWorkspace ∧
    ((run ["web", "--port", "0"] []).run bareWorkspace).1.served = some ⟨"127.0.0.1", 8080, false⟩ := by
  have hinteger : (Decimal.integer? "0").isSome = true := by decide
  have hasked : askedPort (portLine "0") = some 0 := by decide
  have hprepared := prepared_port hinteger
  have hport : portFor (portLine "0") defaultContext.configuration = 8080 := by
    rw [portFor, ← askedPort, hasked]
    rfl
  refine ⟨hasked, hprepared, ?_⟩
  rw [served_prepared hprepared, hport]
  rfl

end Serving

end Provision.Command
