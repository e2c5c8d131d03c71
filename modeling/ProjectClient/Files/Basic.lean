/-! Files as the client uses them, and why an access to them failed. -/
namespace ProjectClient

inductive FileError where
  | notFound
  | alreadyExists
  | notADirectory
  | isADirectory
  | notText
  | other (text : String)
deriving DecidableEq

def FileError.message : FileError → String
  | notFound => "No such file or directory (os error 2)"
  | alreadyExists => "File exists (os error 17)"
  | notADirectory => "Not a directory (os error 20)"
  | isADirectory => "Is a directory (os error 21)"
  | notText => "stream did not contain valid UTF-8"
  | other text => text

structure FileSystem (m : Type → Type) where
  isPresent : String → m Bool
  /-- Makes a directory, and those above it that are missing. -/
  makeDirectory : String → m (Except FileError Unit)
  read : String → m (Except FileError (List UInt8))
  /-- Makes a file, or empties the one that is there. -/
  create : String → m (Except FileError Unit)
  write : String → List UInt8 → m (Except FileError Unit)
  /-- Waits until the content of a file is safe. -/
  sync : String → m (Except FileError Unit)
  /-- Gives the first file the path of the second, in place of what was there. -/
  rename : String → String → m (Except FileError Unit)
  remove : String → m (Except FileError Unit)

def FileSystem.lift {m n : Type → Type} (f : {α : Type} → m α → n α) (files : FileSystem m) :
    FileSystem n where
  isPresent path := f (files.isPresent path)
  makeDirectory path := f (files.makeDirectory path)
  read path := f (files.read path)
  create path := f (files.create path)
  write path bytes := f (files.write path bytes)
  sync path := f (files.sync path)
  rename source target := f (files.rename source target)
  remove path := f (files.remove path)

end ProjectClient
