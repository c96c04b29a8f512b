import Reconciler.Connection.Lifecycle

/-!
# What a failed attempt to connect leaves behind

Opening a connection may fail before credentials have been written to a temporary file, and it
may fail after that, in the loader that is given the file. Only closing a connection removes the
file, and an attempt that fails gives no connection that could be closed. So the file stays
whenever the loader fails that it was written for, in whichever way; in all other failures there
is none.
-/

namespace Reconciler

/-- The temporary file that is there when an attempt is over. -/
def Attempt.leftover (attempt : Attempt) : Option TempFile := attempt.file.filter (·.remains)

/-- How an attempt fails in which a loader has failed. -/
def LoaderError.refusal (cluster : String) : LoaderError → ConnectRefusal
  | .expected text => .credentials cluster (some text)
  | .unexpected => .passedOn

namespace Connection

variable {config : ConnectionConfig} {loader : Loader} {refusal : ConnectRefusal}

@[simp] theorem leftover_openWith (config : ConnectionConfig) (loader : Loader) (load : Load)
    (file : Option TempFile) :
    (openWith config loader load file).leftover = file.filter (·.remains) := rfl

theorem outcome_openWith (config : ConnectionConfig) (loader : Loader) (load : Load)
    (file : Option TempFile) : (openWith config loader load file).outcome =
      (loader load).elim (.ok { config, file }) fun error =>
        .error (error.refusal config.name) := by
  rw [openWith]
  rcases loader load with _ | ⟨text⟩ | _ <;> rfl

/-- An attempt that calls a loader fails exactly if the loader does. -/
theorem outcome_openWith_eq_error {load : Load} {file : Option TempFile} :
    (openWith config loader load file).outcome = .error refusal ↔
      ∃ error, loader load = some error ∧ error.refusal config.name = refusal := by
  rw [outcome_openWith]
  cases loader load with
  | none => exact ⟨nofun, nofun⟩
  | some error =>
    constructor
    · intro failed
      exact ⟨error, rfl, Except.error.inj failed⟩
    · rintro ⟨_, loaded, rfl⟩
      cases loaded
      rfl

/-- An attempt that fails leaves a file with credentials exactly if these came with the
configuration and could be decoded, so that it was a loader that failed, in whichever way. The
file holds what was decoded, and it is the one that the loader was given. Nothing is left of
credentials that cannot be decoded, that are in a file already, or that the cluster has. -/
theorem failed_connect_leaves_iff (config : ConnectionConfig) (loader : Loader)
    (refusal : ConnectRefusal) (failed : (connect config loader).outcome = .error refusal)
    (file : TempFile) :
    (connect config loader).leftover = some file ↔
      file.remains = true ∧ ∃ encoded error, config.credentials = .inline encoded ∧
        Text.Base64.decode true encoded.toList = some file.content ∧
        loader ⟨.content file.content, config.context⟩ = some error ∧
        error.refusal config.name = refusal := by
  unfold connect at failed ⊢
  cases hcredentials : config.credentials with
  | inCluster => simp
  | file path => simp
  | inline encoded =>
    rw [hcredentials] at failed
    dsimp only at failed ⊢
    cases hdecode : Text.Base64.decode true encoded.toList with
    | none =>
      constructor
      · exact nofun
      · rintro ⟨-, _, _, heq, decoded, -⟩
        cases heq
        rw [hdecode] at decoded
        cases decoded
    | some content =>
      rw [hdecode] at failed
      obtain ⟨error, loaded, same⟩ := outcome_openWith_eq_error.mp failed
      constructor
      · intro left
        cases left
        exact ⟨rfl, encoded, error, rfl, hdecode, loaded, same⟩
      · rintro ⟨remains, _, _, heq, decoded, -⟩
        cases heq
        obtain rfl := Option.some.inj (hdecode.symm.trans decoded)
        obtain ⟨content, _⟩ := file
        obtain rfl := remains
        rfl

/-- A configuration that comes with credentials. -/
def inlineConfig : ConnectionConfig where
  name := "test"
  kubeconfigData := some "YXBpVmVyc2lvbjogdjEKa2luZDogQ29uZmlnCg=="

/-- A loader that finds the credentials incomplete. -/
def refusingLoader : Loader := fun _ => some (.expected "Invalid kube-config file.")

/-- How opening a connection then fails. -/
def refusedCredentials : ConnectRefusal := .credentials "test" (some "Invalid kube-config file.")

/-- The file that is written for the loader. -/
def inlineFile : TempFile where
  content := "apiVersion: v1\nkind: Config\n".toUTF8.toList

/-- The file is left for which the loader has failed. -/
theorem failed_connect_leaves_inline_file :
    (connect inlineConfig refusingLoader).outcome = .error refusedCredentials ∧
      (connect inlineConfig refusingLoader).leftover = some inlineFile :=
  ⟨rfl, (failed_connect_leaves_iff inlineConfig refusingLoader refusedCredentials rfl
    inlineFile).mpr ⟨rfl, _, _, rfl, by decide +kernel, rfl, rfl⟩⟩

/-- Credentials stay in a temporary file after a loader has refused them. -/
theorem refused_credentials_remain :
    ¬ ∀ config loader refusal, (connect config loader).outcome = .error refusal →
      (connect config loader).leftover = none := by
  intro clean
  have left : (connect inlineConfig refusingLoader).leftover = some inlineFile := by
    decide +kernel
  rw [clean inlineConfig refusingLoader refusedCredentials rfl] at left
  cases left

end Connection

end Reconciler
