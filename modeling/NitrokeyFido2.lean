import NitrokeyFido2.Lib.Resumption
import NitrokeyFido2.Bootloader.PowerCuts
import NitrokeyFido2.Bootloader.AntiRollback
import NitrokeyFido2.Bootloader.Footprint
import NitrokeyFido2.Bootloader.Upload
import NitrokeyFido2.Ctap.Sample
import NitrokeyFido2.Ctap.Lockout
import NitrokeyFido2.Ctap.KeyStore
import NitrokeyFido2.Ctap.Listing
import NitrokeyFido2.Ctap.Attempts
import NitrokeyFido2.Ctap.Parameters
import NitrokeyFido2.Ctap.Hmac
import NitrokeyFido2.Ctap.Atomicity
import NitrokeyFido2.Ctap.Selection
import NitrokeyFido2.Ctap.ExcludeList
import NitrokeyFido2.Ctap.Signature
import NitrokeyFido2.Ctap.UnknownEntries
import NitrokeyFido2.Ctap.HmacRequests
import NitrokeyFido2.Ctap.KeySpace
import NitrokeyFido2.Ctap.RelyingParty
import NitrokeyFido2.Ctap.AuthData
import NitrokeyFido2.Ctap.CredRandom
import NitrokeyFido2.Ctap.ResponseMaps
import NitrokeyFido2.Ctap.Verification
import NitrokeyFido2.Ctap.CredProtect
import NitrokeyFido2.Ctap.Reset
import NitrokeyFido2.Hid.Buffering
import NitrokeyFido2.Hid.Isolation
import NitrokeyFido2.Hid.Replies
import NitrokeyFido2.Hid.Leftovers
import NitrokeyFido2.Hid.KeyHandles
import NitrokeyFido2.Hid.Fifo
import NitrokeyFido2.Storage.StatePages
import NitrokeyFido2.Storage.CounterRuns
import NitrokeyFido2.Storage.Attestation
import NitrokeyFido2.Storage.Migration
import NitrokeyFido2.Storage.ResidentKeyPages
import NitrokeyFido2.Nfc.Blocks
import NitrokeyFido2.Gpio.Confirmations
import NitrokeyFido2.Gpio.Window
