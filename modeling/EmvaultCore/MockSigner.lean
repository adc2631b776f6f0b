import EmvaultCore.DescriptorText
import EmvaultCore.Federation

/-!
# The deterministic signers of the library's own tests

`MockSigner::with_seed` on testnet for the seeds 1, 2 and 3, with the base58 form
of their extended keys, and as much of `miniscript` as assembles and prints the
`sortedmulti` of the first two.
-/

namespace EmvaultCore.MockSigner

open Library (Text)

def withSeed (seed : Nat) (fingerprint parentFingerprint : Fingerprint)
    (publicKey : SecpPublicKey) (chainCode : ChainCode) : Signer where
  id := String.ofList (Library.Text.hex 8 fingerprint)
  label := some (String.ofList ("mock-".toList ++ Library.Text.decimal seed))
  xpub :=
    { network := .test, depth := 4, parentFingerprint, childNumber := .hardened 2, publicKey,
      chainCode }
  fingerprint := fingerprint
  derivationPath := [.hardened 48, .hardened 1, .hardened 0, .hardened 2]
  signerType := .external
  supportedNetworks := [.bitcoin .testnet]
  capabilities :=
    { blindSigning := false, taproot := false, musig2 := false, transports := [.usb, .qr] }

def first : Signer :=
  withSeed 1 0x281a417d 0xe1e113ae
    ⟨0xc634eab611aa9dadfc6757e122650ae3eef3aac62184ca80acff2bf54fb075ff, true⟩
    0x45e978f7de0c289ea22fc4ea9de6d1451db390420bcc65fff22a067666f99c97

def second : Signer :=
  withSeed 2 0xb03ac307 0x0b44c0df
    ⟨0xe2d6617f7070492b78dc87723459b51f9ed1080208cd0ef9348ed31ad6136627, true⟩
    0xdb1ec0f37481fac72d3ec371416ed550dc7e719aa8db73d7637bfe12924efd62

def third : Signer :=
  withSeed 3 0xefd1b238 0x1b6b2844
    ⟨0x269fc434a47e8e265acc5c8e9865b50148df2dd9256b4909d5061d0472630596, false⟩
    0xbdc36bc512c59001152eaea116791e9a6a0f350d560825e49b75ff95f57fe639

def printing : KeyPrinting where
  uncompressed _ := []
  xpub key :=
    if key = first.xpub then
      "tpubDFZq236xQfW5v9KY5Taw523fvVy1vhMe7rZ6q2acYnGC7Q3AJHfiAP36NiEwsKdFhVW2JCJy5aKWfTTByoMadVA5DUy8Dfd3Au18CNEwRtn".toList
    else if key = second.xpub then
      "tpubDDzLZ66q5tg1wBFE28XWDXZ2yyS4w74XtPSCokHuEXpWUPmW3eSfUbBrUN4UCF5Y5taGoKdFjD8C1A8U9D7PPiGqfoNSM9PzzL2apBVED6M".toList
    else if key = third.xpub then
      "tpubDE7DsxpxZ24DWCdXQiJ6nmLiM3VA58rzXdkCMdqjkVm81XLRTJwwEDDFro4KRfbRn5tHk9wVK3MNyHc3Y9whNCbfBbtadLEqJ1Y78JGznx8".toList
    else []
  derivationPaths _ := []
  derivationPath path := Library.Text.join ['/'] (path.map ChildNumber.toText)

def descriptor (mode : KeyMode) : Descriptor :=
  .wsh (.sortedMulti 2
    [buildDescriptorKey mode (KeyEntry.ofSigner first),
      buildDescriptorKey mode (KeyEntry.ofSigner second)])

def newWshSortedmulti (k : Nat) (keys : List DescriptorPublicKey) : Except String Descriptor :=
  if 0 < k ∧ k ≤ keys.length ∧ keys.length ≤ 20 then .ok (.wsh (.sortedMulti k keys))
  else .error "invalid threshold"

def checksum (body : Text) : Text :=
  if body = (descriptor .fixed).body printing then "v5df58g5".toList
  else if body = (descriptor .ranged).body printing then "yxwnt5zk".toList
  else []

def miniscript : Miniscript where
  printing := printing
  newWshSortedmulti := newWshSortedmulti
  fromStr _ := .error "not a sortedmulti"
  checksum := checksum

theorem miniscript_faithful : miniscript.Faithful where
  sortedmulti := by
    intro k keys descriptor answer
    change newWshSortedmulti k keys = .ok descriptor at answer
    unfold newWshSortedmulti at answer
    split at answer
    · exact (Except.ok.inj answer).symm
    · cases answer
  multiA := by
    intro internalKey k keys descriptor nonempty answer
    cases answer

theorem prints_plain : printing.PrintsPlain := by
  intro key
  by_cases isFirst : key = first.xpub
  · rw [isFirst]
    decide +kernel
  · by_cases isSecond : key = second.xpub
    · rw [isSecond]
      decide +kernel
    · by_cases isThird : key = third.xpub
      · rw [isThird]
        decide +kernel
      · have none : printing.xpub key = [] :=
          (if_neg isFirst).trans ((if_neg isSecond).trans (if_neg isThird))
        simp [none]

theorem prints_base58 : printing.PrintsBase58 := prints_plain.base58

def federationOf (threshold : UInt32) (signers : List Signer) (scriptType : ScriptType) :
    Federation :=
  let descriptor := (DescriptorBuilder.ofSigners threshold (.bitcoin .testnet) .fixed scriptType
    .rawNums signers).assembled .testnet
  { threshold
    signers
    descriptor := some descriptor
    descriptorString := descriptor.toText miniscript
    network := .bitcoin .testnet
    keyMode := .fixed
    scriptType }

def federation (scriptType : ScriptType) : Federation :=
  federationOf 2 [first, second] scriptType

theorem federation_made :
    Federation.new miniscript 2 [first, second] (.bitcoin .testnet) = .ok (federation .wsh) := by
  decide +kernel

end EmvaultCore.MockSigner
