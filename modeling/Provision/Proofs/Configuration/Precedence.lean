import Provision.Configuration.Load
import Provision.Proofs.Outcome
import Provision.Proofs.Recipe.Decoding

/-!
# Where settings come from

A setting is taken from its variable, where this is set and not empty, else from the settings file, else it has its
default (`Layered`). A configuration is good exactly if each of its settings can be read from where it is taken, and
then holds what has been read there (`ofParts_eq_ok`). A data root that is relative counts from the directory of the
file, and any other is left as it is (`anchored_dataRoot`).
-/

namespace Provision

open Provision.Configuration

variable {α : Type} {key name : String} {entries rest : Yaml.Entries} {env : Environment} {file : Option Path}
  {c c' : Configuration} {default a : α} {read : Yaml → Checked α}

theorem Yaml.lookup_append (key : String) (entries rest : Yaml.Entries) :
    Yaml.lookup key (entries ++ rest) = (Yaml.lookup key rest).or (Yaml.lookup key entries) := by
  induction entries with
  | nil => exact (Option.or_none).symm
  | cons e entries ih =>
    obtain ⟨k, v⟩ := e
    simp only [List.cons_append, Yaml.lookup, ih]
    cases Yaml.lookup key rest with
    | some v => rfl
    | none => rfl

theorem Yaml.lookup_cons_of_ne {v : Yaml} (h : name ≠ key) :
    Yaml.lookup key ((.str name, v) :: entries) = Yaml.lookup key entries := by
  cases hrest : Yaml.lookup key entries <;> simp [Yaml.lookup, hrest, h]

namespace Configuration

theorem field_eq_ok : field entries key default read = .ok a ↔
    match Yaml.lookup key entries with
    | none => a = default
    | some v => read v = .ok a := by
  rw [field]
  cases Yaml.lookup key entries with
  | none => exact ⟨fun h => by cases h; rfl, fun h => by rw [h]⟩
  | some v => exact Checked.under_eq_ok

/-- The value of a variable that is set and not empty. -/
def exported? (env : Environment) (name : String) : Option String :=
  (env.lookup name).filter (· ≠ "")

theorem overriding_eq (env : Environment) : overriding env =
    overrides.filterMap fun x => (exported? env x.1).map fun value => (.str x.2, .str value) := by
  refine List.filterMap_congr fun x _ => ?_
  dsimp only
  split
  · rename_i h
    rw [exported?, h]
    rfl
  · rename_i h
    rw [exported?, h]
    rfl
  · rename_i value hempty h
    have hvalue : value ≠ "" := hempty
    simp [exported?, h, Option.filter_some, hvalue]

/-- Where no two variables stand for the same field, a field has the value of its own variable. -/
theorem lookup_exported (env : Environment) (key : String) {xs : List (String × String)}
    (hxs : (xs.map (·.2)).Nodup) :
    Yaml.lookup key (xs.filterMap fun x => (exported? env x.1).map fun value => (.str x.2, .str value)) =
      ((xs.find? (·.2 = key)).bind fun x => exported? env x.1).map .str := by
  induction xs with
  | nil => rfl
  | cons x xs ih =>
    obtain ⟨name, field⟩ := x
    obtain ⟨hfield, hxs⟩ := List.nodup_cons.1 hxs
    have hrest := ih hxs
    by_cases hkey : field = key
    · subst hkey
      have hnone : xs.find? (·.2 = field) = none :=
        List.find?_eq_none.2 fun y hy hyfield => hfield (List.mem_map.2 ⟨y, hy, of_decide_eq_true hyfield⟩)
      rw [hnone] at hrest
      cases hvalue : exported? env name <;> simp [hvalue, hrest, Yaml.lookup]
    · have hfind : ((name, field) :: xs).find? (·.2 = key) = xs.find? (·.2 = key) :=
        List.find?_cons_of_neg (by simpa using hkey)
      rw [hfind, ← hrest]
      cases hvalue : exported? env name with
      | none => rw [List.filterMap_cons_none (by rw [hvalue]; rfl)]
      | some value => rw [List.filterMap_cons_some (by rw [hvalue]; rfl), Yaml.lookup_cons_of_ne hkey]

/-- The variable that overrides a field, if it is set and not empty. -/
def overridden? (env : Environment) (key : String) : Option String :=
  (overrides.find? (·.2 = key)).bind fun x => exported? env x.1

theorem lookup_overriding (env : Environment) (key : String) :
    Yaml.lookup key (overriding env) = (overridden? env key).map .str := by
  rw [overriding_eq]
  exact lookup_exported env key (by decide)

/-- What a setting is read from: the value of a variable, or what the file has, or nothing. -/
def Layered (given : Option String) (inFile : Option Yaml) (default : α) (read : Yaml → Checked α) (a : α) : Prop :=
  match given, inFile with
  | some value, _ => read (.str value) = .ok a
  | none, some v => read v = .ok a
  | none, none => a = default

theorem layered_iff : field (entries ++ overriding env) key default read = .ok a ↔
    Layered (overridden? env key) (Yaml.lookup key entries) default read a := by
  rw [field_eq_ok, Yaml.lookup_append, lookup_overriding]
  cases overridden? env key with
  | some value => rfl
  | none => cases Yaml.lookup key entries <;> rfl

/-- Each setting is read from where it is taken. -/
structure Settled (env : Environment) (entries : Yaml.Entries) (c : Configuration) : Prop where
  dataRoot : Layered (exported? env "INSTALLFORGE_DATA_ROOT") (Yaml.lookup "data_root" entries)
    ⟨.relative, ["data", "projects"]⟩ path c.dataRoot
  host : Layered none (Yaml.lookup "host" entries) "127.0.0.1" text c.host
  port : Layered (exported? env "PORT") (Yaml.lookup "port" entries) 8080 integer c.port
  logLevel : Layered (exported? env "INSTALLFORGE_LOG_LEVEL") (Yaml.lookup "log_level" entries) "WARNING" text
    c.logLevel
  logFile : Layered (exported? env "INSTALLFORGE_LOG_FILE") (Yaml.lookup "log_file" entries) none textOrNone c.logFile

theorem ofParts_eq_ok : ofParts file entries env = .ok c ↔ ∃ c', Settled env entries c' ∧ anchored file c' = c := by
  have hentries : ∀ c', ofEntries (entries ++ overriding env) = .ok c' ↔ Settled env entries c' := by
    intro c'
    simp only [ofEntries, Checked.seq_eq_ok, Checked.map_eq_ok, layered_iff]
    constructor
    · rintro ⟨_, _, ⟨_, _, ⟨_, _, ⟨_, _, ⟨dataRoot, hdataRoot, rfl⟩, hhost, rfl⟩, hport, rfl⟩, hlevel, rfl⟩, hfile, rfl⟩
      exact ⟨hdataRoot, hhost, hport, hlevel, hfile⟩
    · rintro ⟨hdataRoot, hhost, hport, hlevel, hfile⟩
      exact ⟨_, _, ⟨_, _, ⟨_, _, ⟨_, _, ⟨_, hdataRoot, rfl⟩, hhost, rfl⟩, hport, rfl⟩, hlevel, rfl⟩, hfile, rfl⟩
  exact Checked.map_eq_ok.trans (exists_congr fun c' => and_congr_left' (hentries c'))

theorem anchored_dataRoot (file : Option Path) (c : Configuration) : (anchored file c).dataRoot =
    match file with
    | some f =>
      if c.dataRoot.isAbsolute then c.dataRoot else ⟨f.parent.anchor, f.parent.names ++ c.dataRoot.names⟩
    | none => c.dataRoot := by
  cases file <;> rfl

/-- The entries of the settings file, if there is one. -/
def entriesOf : Option Path → LoadM Yaml.Entries
  | some path => readFile path
  | none => pure []

/-- The settings file that is loaded, and the entries in it. -/
def Chooses (given : Option Path) (w : Workspace) (file : Option Path) (entries : Yaml.Entries) : Prop :=
  ∃ w₁ w₂, (chosenFile given).run w = (.ok file, w₁) ∧ (entriesOf file).run w₁ = (.ok entries, w₂)

/-- Tells of the settings that have been read. -/
def accept : Checked Configuration → LoadM Configuration
  | .bad ds => throw (.config (.invalid ds))
  | .ok c => do
    WorkM.log .debug logName ("Settings: data_root=" ++ c.dataRoot.text ++ " port=" ++ Decimal.intText c.port)
    return c

theorem load_eq (given : Option Path) (env : Environment) : load given env =
    chosenFile given >>= fun file => entriesOf file >>= fun entries => accept (ofParts file entries env) := by
  rw [load]
  refine bind_congr fun file => ?_
  cases file <;>
    · refine bind_congr fun entries => ?_
      dsimp only
      cases ofParts _ entries env <;> rfl

theorem load_eq_ok {given : Option Path} {w w' : Workspace} (h : (load given env).run w = (.ok c, w')) :
    ∃ file entries, Chooses given w file entries ∧ ofParts file entries env = .ok c := by
  rw [load_eq] at h
  obtain ⟨file, w₁, hfile, h⟩ := run_bind_eq_ok.1 h
  obtain ⟨entries, w₂, hentries, h⟩ := run_bind_eq_ok.1 h
  refine ⟨file, entries, ⟨w₁, w₂, hfile, hentries⟩, ?_⟩
  cases hparts : ofParts file entries env with
  | bad ds =>
    rw [hparts] at h
    cases h
  | ok c' =>
    rw [hparts] at h
    obtain ⟨-, w₃, -, h⟩ := run_bind_eq_ok.1 h
    cases h
    rfl

end Configuration

end Provision
