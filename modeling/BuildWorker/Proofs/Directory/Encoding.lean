import BuildWorker.Directory
import BuildWorker.Proofs.Json.Lawful

/-!
# Directories and trees are read back

Digests, the entries of directories, directories and trees are lawful messages.
-/

namespace BuildWorker

instance : LawfulMessage Digest where
  isPlain_toJson _ := Message.isPlain_record (by simp)
  ofJson?_toJson _ := by
    refine (Message.bind_fields?_record (by simp) (by simp) _).trans ?_
    simp [List.lookup_cons]

instance : LawfulMessage FileNode where
  isPlain_toJson _ := Message.isPlain_record (by simp)
  ofJson?_toJson _ := by
    refine (Message.bind_fields?_record (by simp) (by simp) _).trans ?_
    simp [List.lookup_cons]

instance : LawfulMessage DirectoryNode where
  isPlain_toJson _ := Message.isPlain_record (by simp)
  ofJson?_toJson _ := by
    refine (Message.bind_fields?_record (by simp) (by simp) _).trans ?_
    simp [List.lookup_cons]

instance : LawfulMessage Directory where
  isPlain_toJson _ := Message.isPlain_record (by simp)
  ofJson?_toJson _ := by
    refine (Message.bind_fields?_record (by simp) (by simp) _).trans ?_
    simp [List.lookup_cons]

instance : LawfulMessage Tree where
  isPlain_toJson _ := Message.isPlain_record (by simp)
  ofJson?_toJson _ := by
    refine (Message.bind_fields?_record (by simp) (by simp) _).trans ?_
    simp [List.lookup_cons]

end BuildWorker
