import DistributedMemory.RunProofs
import DistributedMemory.MonitorProofs
import DistributedMemory.VersionedCellProofs
import DistributedMemory.WrapCounterProofs
import DistributedMemory.OrderedMapProofs
import DistributedMemory.ByteStreamProofs
import DistributedMemory.FlowTextProofs
import DistributedMemory.BufferProofs
import DistributedMemory.DelimitedProofs
import DistributedMemory.OwnershipProofs
import DistributedMemory.CellMemoryProofs
import DistributedMemory.LeaseProofs
import DistributedMemory.DmBlockProofs
import DistributedMemory.DmOwnershipProofs
import DistributedMemory.DmMessageProofs
import DistributedMemory.DmTextProofs
import DistributedMemory.DmDecodeProofs
import DistributedMemory.DmTablesProofs
import DistributedMemory.DmConfigProofs
import DistributedMemory.DmClientProofs
import DistributedMemory.DmAddressProofs
import DistributedMemory.DmServerProofs
import DistributedMemory.DmHostProofs
import DistributedMemory.DmMonitorProofs
import DistributedMemory.DmRoutingProofs
import DistributedMemory.DmInitProofs
import DistributedMemory.DmOutcomeProofs
import DistributedMemory.DmLedgerProofs
import DistributedMemory.DmRefusalProofs
import DistributedMemory.DmIsolationProofs
import DistributedMemory.DmLifetimeProofs
import DistributedMemory.DmMappedProofs
import DistributedMemory.DmSystemProofs
import DistributedMemory.DmPairingProofs
import DistributedMemory.DmHistoryProofs
import DistributedMemory.DmServiceProofs
import DistributedMemory.DmCoherenceProofs
import DistributedMemory.DmUpdateProofs
import DistributedMemory.DmWrapProofs
import DistributedMemory.DmMembershipProofs
import DistributedMemory.DmScopeProofs
import DistributedMemory.DmClusterProofs
import DistributedMemory.DmMachineProofs
import DistributedMemory.DmLinearProofs
import DistributedMemory.DmCausalityProofs
import DistributedMemory.DmProgressProofs
import DistributedMemory.DmAtomicProofs
import DistributedMemory.DmContractProofs
import DistributedMemory.DmProgramProofs
import DistributedMemory.DmHandoffProofs
import DistributedMemory.DmReaderProofs
import DistributedMemory.DmReaderSidesProofs
import DistributedMemory.DmReaderRunProofs
import DistributedMemory.DmReaderFinishProofs
import DistributedMemory.KnowledgeProofs
import DistributedMemory.DmHandshakeProofs
import DistributedMemory.DmSocketProofs
import DistributedMemory.DmFramingProofs
import DistributedMemory.DmReceiveProofs
import DistributedMemory.DmWireProofs
import DistributedMemory.DmPlainSocketProofs
import DistributedMemory.DmLoginProofs
import DistributedMemory.DmListenerProofs
import DistributedMemory.DmCopiesProofs
import DistributedMemory.DmSessionProofs
import DistributedMemory.DmAnswerProofs
import DistributedMemory.DmStoredProofs
