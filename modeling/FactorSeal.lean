import FactorSeal.Sync.Consent
import FactorSeal.Service.Queue
import FactorSeal.Archive.File
import FactorSeal.Vault.Capacity
import FactorSeal.Keyring.Linear
import FactorSeal.Wifi.Deletion
import FactorSeal.Wifi.Vault
import FactorSeal.Wifi.Migration
import FactorSeal.Seal.Adversary
import FactorSeal.Sync.Versions
import FactorSeal.Personal.Totp
import FactorSeal.Personal.Json
import FactorSeal.Service.Time
import FactorSeal.Service.Lease
import FactorSeal.Service.Exclusive
import FactorSeal.Service.Permitted
import FactorSeal.Sync.Union
import FactorSeal.Sync.Permit
import FactorSeal.Keyring.Prompts
import FactorSeal.Sync.Exchange
