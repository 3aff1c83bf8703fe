import HftFixEngine.Networking.EngineLauncher

set_option autoImplicit false

namespace HftFixEngine.Networking.EngineLauncher

open Protocol

structure Positional where
  text : Bytes
  plain : (ascii "--").isPrefixOf text = false
  noHelp : text ≠ ascii "-h"

inductive Argument where
  | positional (argument : Positional)
  | directQueue
  | pinCores
  | rxIface (nic : Bytes)
  | txIface (nic : Bytes)
  | queueId (id : UInt32)
  | protocol (type : Bytes)

namespace Argument

def text : Argument → Bytes
  | .positional argument => argument.text
  | .directQueue => ascii "--direct-queue"
  | .pinCores => ascii "--pin-cores"
  | .rxIface nic => ascii "--rx-iface=" ++ nic
  | .txIface nic => ascii "--tx-iface=" ++ nic
  | .queueId id => ascii "--queue-id=" ++ toChars id.toNat
  | .protocol type => ascii "--protocol=" ++ type

def positional? : Argument → Option Bytes
  | .positional argument => some argument.text
  | _ => none

def set (settings : Settings) : Argument → Settings
  | .positional _ => settings
  | .directQueue => { settings with directQueueMode := true }
  | .pinCores => { settings with enableCorePinning := true }
  | .rxIface nic => { settings with rxInterface := nic }
  | .txIface nic => { settings with txInterface := nic }
  | .queueId id => { settings with queueId := id.toNat }
  | .protocol type => { settings with explicitProtocolArg := type }

end Argument

-- Of an option that is given twice, the last one counts.
def settings (args : List Argument) : Settings := args.foldl Argument.set {}

def positionals (args : List Argument) : List Bytes := args.filterMap Argument.positional?

theorem isSpace_digit {char : UInt8} (digit : isDigit char = true) : isSpace char = false := by
  simp only [isDigit, Bool.and_eq_true, decide_eq_true_eq, UInt8.le_iff_toNat_le,
    UInt8.toNat_ofNat] at digit
  have blank : char ≠ 32 := by
    rintro rfl
    exact absurd digit.1 (by decide)
  simp only [isSpace, beq_eq_false_iff_ne.mpr blank, Bool.false_or, Bool.and_eq_false_iff,
    decide_eq_false_iff_not, UInt8.le_iff_toNat_le, UInt8.toNat_ofNat]
  omega

theorem stoul_toChars (number : Nat) (small : number < 2 ^ 64) :
    stoul (toChars number) = some number := by
  obtain ⟨first, more, written⟩ := List.exists_cons_of_ne_nil (toChars_ne_nil number)
  have digit := isDigit_toChars number first (by simp [written])
  have minus : first ≠ 45 := ne_of_isDigit digit (by decide)
  have plus : first ≠ 43 := ne_of_isDigit digit (by decide)
  have read : unsignedLong (first :: more) = some number := by
    have leading := leadingNumber_toChars number Scan.stops_nil
    rw [List.append_nil, written] at leading
    rw [unsignedLong, leading]
    simpa using small
  rw [written, stoul, List.dropWhile_cons_of_neg (by simp [isSpace_digit digit])]
  split
  next negative => exact absurd (List.cons.inj negative).1 minus
  next positive => exact absurd (List.cons.inj positive).1 plus
  next => exact read

theorem Positional.not_prefix (argument : Positional) (option : Bytes)
    (dashes : (ascii "--").isPrefixOf option = true) : option.isPrefixOf argument.text = false := by
  have plain := argument.plain
  rw [← Bool.not_eq_true, List.isPrefixOf_iff_prefix] at plain ⊢
  rw [List.isPrefixOf_iff_prefix] at dashes
  exact fun named => plain (dashes.trans named)

theorem Positional.ne (argument : Positional) (option : Bytes)
    (dashes : (ascii "--").isPrefixOf option = true) : argument.text ≠ option := by
  rintro rfl
  rw [argument.plain] at dashes
  cases dashes

theorem readArg_text (line : CommandLine) (arg : Argument) :
    readArg line arg.text =
      some
        { arg.set line.toSettings with
          positionalArgs := line.positionalArgs ++ arg.positional?.toList } := by
  cases arg with
  | positional argument =>
    have directQueue := argument.ne (ascii "--direct-queue") (by decide +kernel)
    have pinCores := argument.ne (ascii "--pin-cores") (by decide +kernel)
    have rxIface := argument.not_prefix (ascii "--rx-iface=") (by decide +kernel)
    have txIface := argument.not_prefix (ascii "--tx-iface=") (by decide +kernel)
    have queueId := argument.not_prefix (ascii "--queue-id=") (by decide +kernel)
    have protocol := argument.not_prefix (ascii "--protocol=") (by decide +kernel)
    simp only [readArg, Argument.text, directQueue, pinCores, rxIface, txIface, queueId, protocol,
      argument.plain, if_false, Bool.false_eq_true]
    rfl
  | directQueue => simp [readArg, Argument.text, Argument.set, Argument.positional?]
  | pinCores => simp [readArg, Argument.text, Argument.set, Argument.positional?, ascii]
  | rxIface nic => simp [readArg, Argument.text, Argument.set, Argument.positional?, ascii]
  | txIface nic => simp [readArg, Argument.text, Argument.set, Argument.positional?, ascii]
  | queueId id =>
    have small := id.toNat_lt
    have read := stoul_toChars id.toNat (by omega)
    have word : id.toNat % 4294967296 = id.toNat := Nat.mod_eq_of_lt small
    simp [readArg, Argument.text, Argument.set, Argument.positional?, ascii, read, word]
  | protocol type => simp [readArg, Argument.text, Argument.set, Argument.positional?, ascii]

theorem positionals_cons (arg : Argument) (args : List Argument) :
    positionals (arg :: args) = arg.positional?.toList ++ positionals args := by
  cases arg <;> rfl

theorem foldlM_text (args : List Argument) (line : CommandLine) :
    (args.map Argument.text).foldlM readArg line =
      some
        { args.foldl Argument.set line.toSettings with
          positionalArgs := line.positionalArgs ++ positionals args } := by
  induction args generalizing line with
  | nil => simp [positionals]
  | cons arg args ih =>
    rw [List.map_cons, List.foldlM_cons, readArg_text]
    refine (ih _).trans ?_
    rw [positionals_cons, ← List.append_assoc]
    rfl

theorem no_help (args : List Argument) :
    ((args.map Argument.text).any fun arg => arg = ascii "--help" || arg = ascii "-h") = false := by
  rw [List.any_eq_false]
  intro text member
  obtain ⟨arg, -, rfl⟩ := List.mem_map.mp member
  cases arg with
  | positional argument =>
    have help := argument.ne (ascii "--help") (by decide +kernel)
    simp [Argument.text, help, argument.noHelp]
  | _ => simp [Argument.text, ascii]

-- What the arguments `rx [tx] port source` mean beside the settings. One that stands where the port is
-- looked for is taken for the port, whatever it was meant to be.
inductive Usage (settings : Settings) : List Bytes → Option Placement → Prop where
  | receiver (rx : Bytes) (port : UInt16) (source : Bytes) (unnamed : settings.rxInterface = []) :
    Usage settings [rx, toChars port.toNat, source]
      (some
        { rxInterface := rx
          txInterface := settings.txInterface
          udpPort := port.toNat
          sourceParam := source
          rest := [] })
  | both (rx tx : Bytes) (port : UInt16) (source : Bytes) (unnamed : settings.rxInterface = [])
    (unpaired : settings.txInterface = []) (noNumber : stoul tx = none) :
    Usage settings [rx, tx, toChars port.toNat, source]
      (some
        { rxInterface := rx
          txInterface := tx
          udpPort := port.toNat
          sourceParam := source
          rest := [] })
  | named (port : UInt16) (source : Bytes) (named : settings.rxInterface ≠ []) :
    Usage settings [toChars port.toNat, source]
      (some
        { rxInterface := settings.rxInterface
          txInterface := settings.txInterface
          udpPort := port.toNat
          sourceParam := source
          rest := [] })
  -- A transmitter that is a number, or that an option has named already.
  | transmitterAsPort (rx tx port source : Bytes) (unnamed : settings.rxInterface = [])
    (taken : settings.txInterface ≠ [] ∨ (stoul tx).isSome) :
    Usage settings [rx, tx, port, source]
      ((stoul tx).map fun number =>
        { rxInterface := rx
          txInterface := settings.txInterface
          udpPort := number % 2 ^ 16
          sourceParam := port
          rest := [source] })
  | receiverAsPort (rx port source : Bytes) (named : settings.rxInterface ≠ []) :
    Usage settings [rx, port, source]
      ((stoul rx).map fun number =>
        { rxInterface := settings.rxInterface
          txInterface := settings.txInterface
          udpPort := number % 2 ^ 16
          sourceParam := port
          rest := [source] })
  | receiverAsTransmitter (rx tx port source : Bytes) (named : settings.rxInterface ≠ [])
    (unpaired : settings.txInterface = []) (noNumber : stoul rx = none) :
    Usage settings [rx, tx, port, source]
      ((stoul tx).map fun number =>
        { rxInterface := settings.rxInterface
          txInterface := rx
          udpPort := number % 2 ^ 16
          sourceParam := port
          rest := [source] })
  | bothAgain (rx tx port source : Bytes) (named : settings.rxInterface ≠ [])
    (taken : settings.txInterface ≠ [] ∨ (stoul rx).isSome) :
    Usage settings [rx, tx, port, source]
      ((stoul rx).map fun number =>
        { rxInterface := settings.rxInterface
          txInterface := settings.txInterface
          udpPort := number % 2 ^ 16
          sourceParam := tx
          rest := [port, source] })

theorem placeTx_of_taken (placement : Placement) (positionalArgs rest : List Bytes) (arg : Bytes)
    (first : placement.rest = arg :: rest)
    (taken : placement.txInterface ≠ [] ∨ (stoul arg).isSome) :
    placement.placeTx positionalArgs = placement := by
  rw [Placement.placeTx, first]
  cases taken with
  | inl paired => simp [paired]
  | inr number => simp [Option.isNone_eq_false_iff.mpr number]

theorem place_of_usage {settings : Settings} {positionals : List Bytes} {meant : Option Placement}
    (usage : Usage settings positionals meant) :
    place { settings with positionalArgs := positionals } = meant.map Placement.pair := by
  have read (port : UInt16) : stoul (toChars port.toNat) = some port.toNat :=
    stoul_toChars port.toNat (by have := port.toNat_lt; omega)
  have word (port : UInt16) : port.toNat % 65536 = port.toNat := Nat.mod_eq_of_lt port.toNat_lt
  cases usage with
  | receiver rx port source unnamed =>
    simp [place, Placement.placeRx, Placement.placeTx, Placement.placePort, Placement.placeSource,
      unnamed, read, word]
  | both rx tx port source unnamed unpaired noNumber =>
    simp [place, Placement.placeRx, Placement.placeTx, Placement.placePort, Placement.placeSource,
      unnamed, unpaired, noNumber, read, word]
  | named port source named =>
    simp [place, Placement.placeRx, Placement.placeTx, Placement.placePort, Placement.placeSource,
      named, read, word]
  | transmitterAsPort rx tx port source unnamed taken =>
    simp only [place, Placement.placeRx, unnamed, List.isEmpty_nil, if_true]
    rw [placeTx_of_taken _ _ [port, source] tx rfl taken]
    cases number : stoul tx <;> simp [Placement.placePort, Placement.placeSource, number]
  | receiverAsPort rx port source named =>
    cases number : stoul rx <;>
      simp [place, Placement.placeRx, Placement.placeTx, Placement.placePort, Placement.placeSource,
        named, number]
  | receiverAsTransmitter rx tx port source named unpaired noNumber =>
    cases number : stoul tx <;>
      simp [place, Placement.placeRx, Placement.placeTx, Placement.placePort, Placement.placeSource,
        named, unpaired, noNumber, number]
  | bothAgain rx tx port source named taken =>
    simp only [place, Placement.placeRx, List.isEmpty_eq_false_iff.mpr named, if_false,
      Bool.false_eq_true]
    rw [placeTx_of_taken _ _ [tx, port, source] rx rfl taken]
    cases number : stoul rx <;> simp [Placement.placePort, Placement.placeSource, number]

theorem run_text (files : Bytes → Option Dataset) (args : List Argument) (enough : 3 ≤ args.length)
    {meant : Option Placement} (usage : Usage (settings args) (positionals args) meant) :
    run files (args.map Argument.text) =
      meant.elim .terminated fun placement =>
        .launched (launch files (settings args) placement.pair) := by
  have long : ¬ (args.map Argument.text).length < 3 := by simpa using enough
  have placed := place_of_usage usage
  rw [run, no_help, if_neg Bool.false_ne_true, if_neg long, foldlM_text]
  dsimp only
  rw [List.nil_append, show args.foldl Argument.set {} = settings args from rfl, placed]
  cases meant <;> rfl

def countedRun : List Argument :=
  [.protocol (ascii "SBE"),
    .positional ⟨ascii "veth1", by decide +kernel, by decide +kernel⟩,
    .directQueue,
    .positional ⟨toChars (8888 : UInt16).toNat, by decide +kernel, by decide +kernel⟩,
    .positional ⟨ascii "2000", by decide +kernel, by decide +kernel⟩]

theorem run_text_counted :
    run (fun _ => none) (countedRun.map Argument.text) =
      .launched
        { rxInterface := ascii "veth1"
          txInterface := ascii "veth0"
          targetIp := ascii "239.255.0.1"
          udpPort := 8888
          directQueueMode := true
          enableCorePinning := false
          queueId := 0
          fixFilePath := []
          totalMessages := 2000
          protocolType := .sbe
          logFilename := ascii "sbe_engine.log"
          csvFilename := ascii "sbe_metrics_time_series.csv" } := by
  have usage : Usage (settings countedRun) (positionals countedRun) _ :=
    .receiver (ascii "veth1") 8888 (ascii "2000") rfl
  exact (run_text (fun _ => none) countedRun (by decide) usage).trans (by decide +kernel)

end HftFixEngine.Networking.EngineLauncher
