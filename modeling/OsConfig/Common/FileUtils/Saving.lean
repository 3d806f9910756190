import OsConfig.Common.FileUtils

/-!
# Saving files

A file that is saved by way of a temporary one has the new content, and of the
files that last no other one is touched.
-/

namespace OsConfig.CommonUtils

variable {fs fs' fs'' : FileSystem} {paths : List ByteString}

/-- A name that no temporary file has. -/
def IsLasting (path : ByteString) : Prop :=
  (basename path).head? ≠ some 126

instance (path : ByteString) : Decidable (IsLasting path) :=
  inferInstanceAs (Decidable (_ ≠ _))

/-- Of the files that last only the named ones may differ. -/
structure Touches (paths : List ByteString) (fs fs' : FileSystem) : Prop where
  directory : fs'.directory = fs.directory
  read : ∀ path, IsLasting path → (∀ touched ∈ paths, basename path ≠ basename touched) →
    fs'.read path = fs.read path

theorem Touches.refl : Touches paths fs fs := ⟨rfl, fun _ _ _ => rfl⟩

theorem Touches.trans (first : Touches paths fs fs') (second : Touches paths fs' fs'') :
    Touches paths fs fs'' := by
  refine ⟨second.directory.trans first.directory, ?_⟩
  intro path lasting apart
  rw [second.read path lasting apart, first.read path lasting apart]

theorem Touches.mono {others : List ByteString} (touches : Touches paths fs fs')
    (subset : paths ⊆ others) : Touches others fs fs' :=
  ⟨touches.directory, fun path lasting apart =>
    touches.read path lasting fun touched mem => apart touched (subset mem)⟩

theorem touches_write {path : ByteString} (content : ByteString) (mem : path ∈ paths) :
    Touches paths fs (fs.write path content) := by
  refine ⟨rfl, fun queried _ apart => FileSystem.read_write_of_ne ?_⟩
  intro same
  rw [FileSystem.entry, FileSystem.entry, Prod.mk.injEq] at same
  exact apart path mem same.2

theorem entry_ne_of_temporary {path temp : ByteString} (lasting : IsLasting path)
    (temporary : ¬IsLasting temp) : fs.entry path ≠ fs.entry temp := by
  intro same
  rw [FileSystem.entry, FileSystem.entry, Prod.mk.injEq] at same
  rw [IsLasting, ← same.2] at temporary
  exact temporary lasting

theorem touches_write_temporary {temp : ByteString} (temporary : ¬IsLasting temp)
    (content : ByteString) : Touches paths fs (fs.write temp content) :=
  ⟨rfl, fun _ lasting _ =>
    FileSystem.read_write_of_ne (entry_ne_of_temporary lasting temporary)⟩

theorem touches_remove_temporary {temp : ByteString} (temporary : ¬IsLasting temp) :
    Touches paths fs (fs.remove temp) := by
  refine ⟨rfl, fun path lasting _ => ?_⟩
  rw [FileSystem.read_remove, if_neg (entry_ne_of_temporary lasting temporary)]

theorem touches_rename_temporary {temp temp' : ByteString} (temporary : ¬IsLasting temp)
    (temporary' : ¬IsLasting temp') : Touches paths fs (fs.rename temp temp') := by
  rw [FileSystem.rename]
  split
  · split
    · exact .refl
    · exact (touches_remove_temporary temporary).trans (touches_write_temporary temporary' _)
  · exact .refl

theorem entry_tempFileName_ne {path : ByteString} (lasting : IsLasting path)
    (fileName : ByteString) (random : ℕ) :
    fs.entry (tempFileName fileName random) ≠ fs.entry path := by
  intro same
  rw [FileSystem.entry, FileSystem.entry, Prod.mk.injEq] at same
  have tilde : bytes "~OSConfig" ≠ [] ∧ (bytes "~OSConfig").head? = some 126 := by
    rw [bytes_ofList]
    decide
  apply lasting
  rw [← same.2, basename_tempFileName, List.head?_append_of_ne_nil _ tilde.1, tilde.2]

/-- A file is replaced by way of a temporary one. -/
theorem secureSaveToFile_spec {fileName payload : ByteString} (fs : FileSystem) (random : ℕ)
    (lasting : IsLasting fileName) (some_payload : payload ≠ []) :
    (secureSaveToFile fileName payload random fs).1 = true ∧
      (secureSaveToFile fileName payload random fs).2.read fileName = some payload ∧
        Touches [fileName] fs (secureSaveToFile fileName payload random fs).2 := by
  let temp := tempFileName fileName random
  have apart : fs.entry temp ≠ fs.entry fileName := entry_tempFileName_ne lasting fileName random
  have there : (fs.write temp payload).fileExists temp = true := by simp
  have saved : secureSaveToFile fileName payload random fs =
      (true, ((fs.write temp payload).rename temp fileName).remove temp) := by
    simp only [secureSaveToFile, internalSecureSaveToFile, if_neg some_payload, saveToFile,
      renameFileWithOwnerAndAccess]
    simp [temp]
  have reads (queried : ByteString) :
      (((fs.write temp payload).rename temp fileName).remove temp).read queried =
        if fs.entry queried = fs.entry fileName then some payload
        else if fs.entry queried = fs.entry temp then none else fs.read queried :=
    FileSystem.read_write_rename_remove apart queried
  rw [saved]
  refine ⟨rfl, ?_, ?_, ?_⟩
  · rw [reads, if_pos rfl]
  · rw [FileSystem.rename]
    split
    · split_ifs <;> rfl
    · rfl
  · intro queried queried_lasting differs
    rw [reads, if_neg, if_neg]
    · exact fun same => entry_tempFileName_ne queried_lasting fileName random same.symm
    · intro same
      rw [FileSystem.entry, FileSystem.entry, Prod.mk.injEq] at same
      exact differs fileName (by simp) same.2

end OsConfig.CommonUtils
