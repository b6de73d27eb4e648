import GenScope.Settings.Directory

/-!
# Settings of a comparison

Two trees are compared by the first bytes of their files, and what differs is written to a third
directory.
-/

namespace GenScope

structure ComparisonSettings where
  /-- The tree written by the stable compiler. -/
  masterRoot : Text
  /-- The tree that is compared with it. -/
  comparedRoot : Text
  /-- Where differences are written. -/
  diffRoot : Text
  /-- Differences in comments alone are not written. -/
  skipComments : Bool
  /-- The number of bytes that decide whether files differ. -/
  headerBytes : Nat
  /-- The number of bytes before the checksum that takes comments into account. -/
  commentFreeBytes : Nat
deriving DecidableEq, Repr

namespace ComparisonSettings

def modelName : Text := "DiffConfig"

/-- Reads the settings from an object; the directories are looked up in the file tree. -/
def ofValue (r : FieldReaders) (t : FileTree) (v : Value) : Except DirectoryFault (Checked ComparisonSettings) :=
  match Reader.object modelName v with
  | .invalid issues => .ok (.invalid issues)
  | .valid members => do
    let master ← members.directory r t "master_root" "Master"
    let compared ← members.directory r t "cmp_root" "Compared"
    let diff ← members.directory r t "diff_root" "Diff"
    return (master.map ComparisonSettings.mk)
      |>.seq compared
      |>.seq diff
      |>.seq (members.optional "skip_comments" false r.boolean)
      |>.seq (members.optional "header_bytes" 64 r.positive)
      |>.seq (members.optional "comment_free_bytes" 30 r.positive)

end ComparisonSettings

end GenScope
