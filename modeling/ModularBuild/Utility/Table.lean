import ModularBuild.Utility.ArgumentLists
import ModularBuild.Utility.Blocks
import ModularBuild.Utility.Characters
import ModularBuild.Utility.Checksums
import ModularBuild.Utility.Columns
import ModularBuild.Utility.Comparison
import ModularBuild.Utility.Condition
import ModularBuild.Utility.Copying
import ModularBuild.Utility.Count
import ModularBuild.Utility.Difference
import ModularBuild.Utility.Directories
import ModularBuild.Utility.Dump
import ModularBuild.Utility.Edit
import ModularBuild.Utility.Encoding
import ModularBuild.Utility.Expression
import ModularBuild.Utility.Find
import ModularBuild.Utility.Identity
import ModularBuild.Utility.Lines
import ModularBuild.Utility.Links
import ModularBuild.Utility.Listing
import ModularBuild.Utility.Ordered
import ModularBuild.Utility.PathNames
import ModularBuild.Utility.Permissions
import ModularBuild.Utility.Printing
import ModularBuild.Utility.Removal
import ModularBuild.Utility.Rules
import ModularBuild.Utility.Search
import ModularBuild.Utility.Sequence
import ModularBuild.Utility.Sort
import ModularBuild.Utility.Starting
import ModularBuild.Utility.Status
import ModularBuild.Utility.Times

/-!
# The utilities by name
-/

namespace ModularBuild.Utility

/-- A utility with the exit code of its failures. -/
structure Installed where
  name : String
  utility : Utility
  failure : Nat := 1

def constant (code : Nat) : Utility := fun _ => return code

def installed : List Installed := [
  { name := "[", utility := bracket, failure := 2 },
  { name := "arch", utility := arch },
  { name := "awk", utility := awk, failure := 2 },
  { name := "base32", utility := base32 },
  { name := "base64", utility := base64 },
  { name := "basename", utility := basename },
  { name := "cat", utility := cat },
  { name := "chgrp", utility := chgrp },
  { name := "chmod", utility := chmod },
  { name := "chown", utility := chown },
  { name := "cksum", utility := cksum },
  { name := "cmp", utility := cmp, failure := 2 },
  { name := "comm", utility := comm },
  { name := "cp", utility := cp },
  { name := "cut", utility := cut },
  { name := "date", utility := date },
  { name := "dd", utility := dd },
  { name := "diff", utility := diff, failure := 2 },
  { name := "dir", utility := dir, failure := 2 },
  { name := "dirname", utility := dirname },
  { name := "echo", utility := echo },
  { name := "egrep", utility := egrep, failure := 2 },
  { name := "env", utility := env, failure := 125 },
  { name := "expand", utility := expand },
  { name := "expr", utility := expr, failure := 2 },
  { name := "false", utility := constant 1 },
  { name := "fgrep", utility := fgrep, failure := 2 },
  { name := "find", utility := find },
  { name := "fold", utility := fold },
  { name := "grep", utility := grep, failure := 2 },
  { name := "groups", utility := groups },
  { name := "head", utility := head },
  { name := "hostname", utility := hostname },
  { name := "id", utility := id },
  { name := "install", utility := install },
  { name := "join", utility := join },
  { name := "link", utility := link },
  { name := "ln", utility := ln },
  { name := "logname", utility := logname },
  { name := "ls", utility := ls, failure := 2 },
  { name := "mawk", utility := awk, failure := 2 },
  { name := "md5sum", utility := md5sum },
  { name := "mkdir", utility := mkdir },
  { name := "mktemp", utility := mktemp },
  { name := "mv", utility := mv },
  { name := "nawk", utility := awk, failure := 2 },
  { name := "nice", utility := nice, failure := 125 },
  { name := "nl", utility := nl },
  { name := "nohup", utility := nohup, failure := 125 },
  { name := "nproc", utility := nproc },
  { name := "od", utility := od },
  { name := "paste", utility := paste },
  { name := "printenv", utility := printenv, failure := 2 },
  { name := "printf", utility := printf },
  { name := "pwd", utility := pwd },
  { name := "readlink", utility := readlink },
  { name := "realpath", utility := realpath },
  { name := "rev", utility := rev },
  { name := "rgrep", utility := rgrep, failure := 2 },
  { name := "rm", utility := rm },
  { name := "rmdir", utility := rmdir },
  { name := "sed", utility := sed },
  { name := "seq", utility := seq },
  { name := "sha1sum", utility := sha1sum },
  { name := "sha224sum", utility := sha224sum },
  { name := "sha256sum", utility := sha256sum },
  { name := "sha384sum", utility := sha384sum },
  { name := "sha512sum", utility := sha512sum },
  { name := "sleep", utility := sleep },
  { name := "sort", utility := sort, failure := 2 },
  { name := "split", utility := split },
  { name := "stat", utility := stat },
  { name := "sum", utility := sum },
  { name := "sync", utility := sync },
  { name := "tac", utility := tac },
  { name := "tail", utility := tail },
  { name := "tee", utility := tee },
  { name := "test", utility := test, failure := 2 },
  { name := "timeout", utility := timeout, failure := 125 },
  { name := "touch", utility := touch },
  { name := "tr", utility := tr },
  { name := "true", utility := constant 0 },
  { name := "truncate", utility := truncate },
  { name := "tty", utility := tty, failure := 2 },
  { name := "uname", utility := uname },
  { name := "unexpand", utility := unexpand },
  { name := "uniq", utility := uniq },
  { name := "unlink", utility := unlink },
  { name := "users", utility := users },
  { name := "wc", utility := wc },
  { name := "which", utility := which },
  { name := "whoami", utility := whoami },
  { name := "xargs", utility := xargs },
  { name := "yes", utility := yes }]

def imageMark : List UInt8 := [0x7F, 0x45, 0x4C, 0x46]

def image (name : String) : List UInt8 := imageMark ++ ByteText.bytes name

def nameOfImage? (bytes : List UInt8) : Option String :=
  if imageMark.isPrefixOf bytes then some (ByteText.ofBytes (bytes.drop imageMark.length)) else none

end ModularBuild.Utility
