import ProcessCensus.Linux.Source
import ProcessCensus.Proofs.Darwin.Parameter
import ProcessCensus.Proofs.Invocation.Encoding

/-!
A process that was started in one way is described alike by a Linux system, in two files with a zero
byte after each string, and by a Darwin kernel, in a blob. The bytes need not be proper text.
-/

namespace ProcessCensus

open Invocation

theorem Linux.invocation_on {host : Host Linux.Kernel} {pid : Int32}
    {arguments environment : List Bytes}
    (hArguments : host.kernel.tree.read (.ofProcess pid "cmdline") = .ok (terminate arguments))
    (hEnvironment : host.kernel.tree.read (.ofProcess pid "environ") = .ok (terminate environment)) :
    (Linux.invocation pid).on host =
      (.ok { arguments := nulSeparated (terminate arguments)
             environment := .ofLines (nulSeparated (terminate environment)) }, host) := by
  rw [Linux.invocation, Run.on_bind_of_eq (Run.on_kernel host)]
  simp [hArguments, hEnvironment, Except.toOption]

variable {path : Bytes} {arguments environment : List Bytes}

namespace Invocation.Distinct

theorem nulSeparated_arguments (hDistinct : Distinct path arguments environment) :
    nulSeparated (terminate arguments) = arguments.map Text.Utf8.text := by
  obtain ⟨first, hFirst, hSome⟩ := hDistinct.first
  refine nulSeparated_terminate hDistinct.arguments ?_
  rintro rfl
  exact hSome (Option.some.inj hFirst).symm

theorem nulSeparated_environment (hDistinct : Distinct path arguments environment) :
    nulSeparated (terminate environment) = environment.map Text.Utf8.text := by
  refine nulSeparated_terminate (fun s hMem => (hDistinct.environment s hMem).2) ?_
  rintro rfl
  exact (hDistinct.environment [] List.mem_cons_self).1 rfl

end Invocation.Distinct

/-- Both systems tell the same about how a process was started, and nothing is lost but the bytes
that are no text. The blob may have anything behind a zero byte after its last string, as long as the
kernel hands it out whole. -/
theorem invocation_linux_eq_darwin (hDistinct : Distinct path arguments environment) (padding : Nat)
    (rest : Bytes) (hRest : ∀ b ∈ rest.head?, b = 0) {pid : Int32} {linux : Host Linux.Kernel}
    (hArguments : linux.kernel.tree.read (.ofProcess pid "cmdline") = .ok (terminate arguments))
    (hEnvironment : linux.kernel.tree.read (.ofProcess pid "environ") = .ok (terminate environment))
    {darwin : Host Darwin.Kernel} {limit : Int32}
    (hBlob : darwin.kernel.Answers (.parameter (Darwin.addressName (Darwin.argumentsAddress pid)))
      (blob path padding arguments environment ++ rest))
    (hLimits : darwin.kernel.Limits limit)
    (hFits : (blob path padding arguments environment ++ rest).length ≤ limit.toNatClampNeg) :
    ((Linux.source.invocation pid).on linux).1 = ((Darwin.source.invocation pid).on darwin).1 ∧
      ((Linux.source.invocation pid).on linux).1 =
        .ok { arguments := arguments.map Text.Utf8.text
              environment := .ofLines (environment.map Text.Utf8.text) } := by
  have hLinux : ((Linux.source.invocation pid).on linux).1 =
      .ok { arguments := arguments.map Text.Utf8.text
            environment := .ofLines (environment.map Text.Utf8.text) } := by
    change ((Linux.invocation pid).on linux).1 = _
    rw [Linux.invocation_on hArguments hEnvironment, hDistinct.nulSeparated_arguments,
      hDistinct.nulSeparated_environment]
  have hDarwin := Darwin.invocation_on (hDistinct.ofBlob_blob_append padding rest hRest) hBlob
    hLimits hFits
  exact ⟨hLinux.trans hDarwin.symm, hLinux⟩

/-- The arguments and the environment of a process with an empty argument, bytes that are no text, and
a variable that is set twice. -/
def oddArguments : List Bytes := [[0x73, 0xff], [], [0x3d]]

def oddEnvironment : List Bytes := [[0x41, 0x3d, 0x31], [0x42], [0x41, 0x3d, 0xff]]

def oddLinux : Host Linux.Kernel where
  kernel := {
    tree := ⟨[([[0x37]], .directory),
      ([[0x37], Text.Utf8.bytes "cmdline"], .file (terminate oddArguments)),
      ([[0x37], Text.Utf8.bytes "environ"], .file (terminate oddEnvironment))]⟩
    users := []
    groups := []
    bootTime := .forever
    clockTicks := 100
    pageSize := 4096
    ownPid := 1 }
  clock := 0
  journal := []

def oddDarwin : Host Darwin.Kernel where
  kernel := {
    replies := [
      (.parameter "kern.argmax", .always (.data [0, 1, 0, 0] none)),
      (.parameter "1.49.7",
        .always (.data (blob [0x2f] 2 oddArguments oddEnvironment ++ [0, 7]) none))]
    sizes := []
    users := []
    groups := []
    clock := (Darwin.nanoseconds, 0)
    timebase := .forever
    argumentLimit := .forever
    ownPid := 1 }
  clock := 0
  journal := []

theorem invocation_linux_eq_darwin_odd :
    Distinct [0x2f] oddArguments oddEnvironment ∧
      oddLinux.kernel.tree.read (.ofProcess 7 "cmdline") = .ok (terminate oddArguments) ∧
      oddLinux.kernel.tree.read (.ofProcess 7 "environ") = .ok (terminate oddEnvironment) ∧
      oddDarwin.kernel.Answers (.parameter (Darwin.addressName (Darwin.argumentsAddress 7)))
        (blob [0x2f] 2 oddArguments oddEnvironment ++ [0, 7]) ∧
      oddDarwin.kernel.Limits 256 ∧
      ((Linux.source.invocation 7).on oddLinux).1 = ((Darwin.source.invocation 7).on oddDarwin).1 ∧
      ((Linux.source.invocation 7).on oddLinux).1 =
        .ok ⟨["s\ufffd", "", "="], ⟨[("A", "\ufffd")]⟩⟩ := by
  have hDistinct : Distinct [0x2f] oddArguments oddEnvironment :=
    ⟨by decide, ⟨_, rfl, by decide⟩, by decide, by decide, by decide⟩
  have hArguments : oddLinux.kernel.tree.read (.ofProcess 7 "cmdline") =
      .ok (terminate oddArguments) := by rfl
  have hEnvironment : oddLinux.kernel.tree.read (.ofProcess 7 "environ") =
      .ok (terminate oddEnvironment) := by rfl
  have hBlob : oddDarwin.kernel.Answers (.parameter (Darwin.addressName (Darwin.argumentsAddress 7)))
      (blob [0x2f] 2 oddArguments oddEnvironment ++ [0, 7]) := ⟨none, by decide, rfl⟩
  have hLimits : oddDarwin.kernel.Limits 256 := .inr ⟨rfl, none, rfl, rfl⟩
  have hTexts : oddArguments.map Text.Utf8.text = ["s\ufffd", "", "="] := by decide
  have hVariables : Environment.ofLines (oddEnvironment.map Text.Utf8.text) =
      ⟨[("A", "\ufffd")]⟩ := by decide
  obtain ⟨hSame, hTold⟩ := invocation_linux_eq_darwin hDistinct 2 [0, 7] (by simp)
    hArguments hEnvironment hBlob hLimits (by decide)
  rw [hTexts, hVariables] at hTold
  exact ⟨hDistinct, hArguments, hEnvironment, hBlob, hLimits, hSame, hTold⟩

end ProcessCensus
