import SuperHerdr.Library.CommandLine
import SuperHerdr.Daemon.Refresh

/-!
# Commands for a host

A target is asked with its own `herdr`: run here, or by a shell on the host that `ssh` hands one
line to. The line is the executable and its arguments, each in single quotes, where a single quote
of the text is put between double quotes. The shell reads it back as that executable with those
arguments, whatever is in them (`remote_command_is_read_back`).
-/

namespace SuperHerdr

namespace Transport

open CommandLine hiding isBlank quoteCharacter
open Refresh (TransportConfig)

/-- A program that is started here, without a shell. -/
structure Command where
  program : String
  args : List String
deriving DecidableEq

/-- What a character of a text becomes between single quotes. -/
def quoteCharacter (character : Char) : List Char :=
  if character = '\'' then "'\"'\"'".toList else [character]

def quotePosix (value : String) : String :=
  "'" ++ String.ofList (value.toList.flatMap quoteCharacter) ++ "'"

def renderRemoteCommand (executable : String) (args : List String) : String :=
  " ".intercalate ((executable :: args).map quotePosix)

def buildSshCommand (destination : String) (transport : TransportConfig) (remoteCommand : String) :
    Command where
  program := transport.sshBin
  args := (if transport.batchMode then ["-o", "BatchMode=yes"] else []) ++
    ["-o", s!"ConnectTimeout={transport.connectTimeoutSeconds}", "--", destination, remoteCommand]

def herdrArgs (target : Refresh.Target) (operationArgs : List String) : List String :=
  (target.session.elim [] fun session => ["--session", session]) ++ operationArgs

def buildHerdrCommand (target : Refresh.Target) (transport : TransportConfig) (executable : String)
    (operationArgs : List String) : Command :=
  let herdrArgs := herdrArgs target operationArgs
  match target.ssh with
  | some destination =>
      buildSshCommand destination transport (renderRemoteCommand executable herdrArgs)
  | none => ⟨executable, herdrArgs⟩

/-! ### What the shell reads -/

theorem quotes_quotePosix : Quotes fun word => (quotePosix (String.ofList word)).toList := by
  have hquotes : Quotes fun word => ['\''] ++ word.flatMap quoteCharacter ++ ['\''] := by
    refine quotes_single fun held character line => ?_
    rw [quoteCharacter]
    split
    · next hquote =>
      subst hquote
      simp [readWords, Word.push, Word.quote, CommandLine.isBlank]
    · next hplain => simp [readWords, Word.push, hplain]
  intro word line
  rw [← hquotes word line]
  simp [quotePosix]

theorem toList_renderRemoteCommand (executable : String) (args : List String) :
    (renderRemoteCommand executable args).toList =
      [' '].intercalate (((executable :: args).map String.toList).map
        fun word => (quotePosix (String.ofList word)).toList) := by
  have hblank : " ".toList = [' '] := rfl
  have hquoted : String.toList ∘ quotePosix =
      (fun word => (quotePosix (String.ofList word)).toList) ∘ String.toList := by
    funext word
    simp only [Function.comp_apply, String.ofList_toList]
  rw [renderRemoteCommand, String.toList_intercalate, List.map_map, List.map_map, hblank, hquoted]

/-- **A remote command is read back as it was given.** The shell reads the line as the executable
and its arguments, word for word, and as nothing else. A target with an `ssh` destination is sent
that line and one without runs the executable with the same arguments. -/
theorem remote_command_is_read_back (executable : String) (args : List String)
    (target : Refresh.Target) (transport : TransportConfig) :
    commandWords (renderRemoteCommand executable args).toList =
        some ((executable :: args).map String.toList) ∧
      match target.ssh with
      | some _ => ∃ line, (buildHerdrCommand target transport executable args).args.getLast? =
            some line ∧
          commandWords line.toList =
            some ((executable :: herdrArgs target args).map String.toList)
      | none => buildHerdrCommand target transport executable args =
          ⟨executable, herdrArgs target args⟩ := by
  have hread (args : List String) : commandWords (renderRemoteCommand executable args).toList =
      some ((executable :: args).map String.toList) := by
    rw [toList_renderRemoteCommand]
    exact commandWords_quoted quotes_quotePosix _
  refine ⟨hread args, ?_⟩
  cases hssh : target.ssh with
  | none => simp [buildHerdrCommand, hssh]
  | some destination =>
    refine ⟨_, ?_, hread (herdrArgs target args)⟩
    simp [buildHerdrCommand, hssh, buildSshCommand]

example : renderRemoteCommand "herdr" ["it's", ""] = "'herdr' 'it'\"'\"'s' ''" := by decide

end Transport

end SuperHerdr
